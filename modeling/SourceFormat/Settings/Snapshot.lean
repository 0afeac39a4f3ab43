import SourceFormat.Settings.Basic
import SourceFormat.Toml.Printer
import SourceFormat.Toml.Reading

/-!
# Settings in files

Settings are kept in a file as a TOML document with one line per setting.  What is not mentioned has
its stock value; an option file that is not set is not mentioned.  A path that is no text has no
written form, so settings with such a path cannot be kept.
-/

namespace SourceFormat.Settings

open Toml

/-- The fields of the settings. -/
def fields : List (GroupField Settings) :=
  [⟨"executable_path", fun item s => item.path.map fun p => { s with executable := p }⟩,
   ⟨"config_path", fun item s => item.path.map fun p => { s with config := some p }⟩,
   ⟨"formatting_enabled", fun item s => item.bool.map fun b => { s with formattingEnabled := b }⟩,
   ⟨"timeout_ms", fun item s => item.word64.map fun n => { s with timeoutMillis := n }⟩]

/-- Read settings from the text of a document. -/
def parse (document : String) : Except ReadError Settings :=
  (readDocument fields {} document).map (·.2)

/-- One line of the written form. -/
def line (key value : String) : String :=
  key ++ " = " ++ value ++ "\n"

/-- The written form of settings; none if one of the paths is no text. -/
def write? (s : Settings) : Option String := do
  let executable ← s.executable.text?
  let config ← match s.config with
    | none => some ""
    | some p => p.text?.map fun t => line "config_path" (writeString t)
  return line "executable_path" (writeString executable) ++ config
    ++ line "formatting_enabled" (if s.formattingEnabled then "true" else "false")
    ++ line "timeout_ms" (toString s.timeoutMillis.toNat)

/-- Why settings cannot be kept. -/
def unwritableText : String :=
  "path contains invalid UTF-8 characters"

end SourceFormat.Settings
