import SourceFormat.Duration
import SourceFormat.Eligibility

/-!
# Settings

What is settled once for all formatting: which formatter to run, which option file to fall back on,
whether to format at all, and how long a run may take.
-/

namespace SourceFormat

/-- The settings of a user. -/
structure Settings where
  /-- The formatter; a bare name is looked up on the search path. -/
  executable : Path := Path.ofString "uncrustify"
  /-- The option file for projects that have none of their own. -/
  config : Option Path := none
  formattingEnabled : Bool := true
  /-- How many milliseconds a run may take; zero for any number. -/
  timeoutMillis : UInt64 := 10000
  deriving Repr, DecidableEq

namespace Settings

/-- How long a run may take, if that is limited. -/
def timeout (s : Settings) : Option Duration :=
  if 0 < s.timeoutMillis then some (Duration.ofMillis s.timeoutMillis.toNat) else none

/-- Whether a request for this file should reach the formatter. -/
def canFormat (s : Settings) (p : Path) : Bool :=
  s.formattingEnabled && isExtensionSupported p

/-- Whether a request for a document of this language should reach the formatter. -/
def canFormatLanguage (s : Settings) (language : String) : Bool :=
  s.formattingEnabled && isLanguageSupported language

end Settings

end SourceFormat
