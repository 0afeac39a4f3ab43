import Mathlib
import SourceFormat.Proofs.Config.GeneratedFile

/-!
# Wherever an option file is written

Whether an option file goes to a sink, to memory, to a path or into the file that a run generates,
what arrives there is the text that `OptionFile.render` says, byte for byte, or a failure is
reported.
-/

namespace SourceFormat.OptionFile

/-- A sink that takes any number of bytes gets the whole text. -/
lemma writeTo_of_unlimited (f : OptionFile) (sink : Sink) (hroom : sink.room = none)
    (hheld : sink.held = []) :
    (f.writeTo sink).1 = .ok () ∧ (f.writeTo sink).2.held = Utf8.encode f.render := by
  have hall : sink.HasRoom (Utf8.encode f.render).length := by
    intro room hsome
    rw [hroom] at hsome
    cases hsome
  have hok := (writeTo_eq_ok_iff f (Sink.hasRoom_zero hheld)).mpr hall
  refine ⟨hok, ?_⟩
  rw [held_of_writeTo hok, hheld, List.nil_append]

/-- What comes out of memory is the text. -/
lemma collected?_eq (f : OptionFile) : f.collected? = some f.render := by
  obtain ⟨hok, hheld⟩ := writeTo_of_unlimited f {} rfl rfl
  unfold collected?
  cases hwritten : f.writeTo {} with
  | mk answer sink =>
    rw [hwritten] at hok hheld
    obtain rfl : answer = .ok () := hok
    have hheld : sink.held = Utf8.encode f.render := hheld
    simp only [hheld, Utf8.decode?_encode]

/-- **Wherever an option file is written, it is the rendered text that arrives.**

* A sink that takes at most `n` bytes, in whatever steps it takes them, is written to with success
  exactly if the rendered text has at most `n` bytes.  It holds the text then and nothing else;
  otherwise it holds a beginning of it, and its own failure is the one that is reported.
* A sink that takes any number of bytes gets the whole text; so does one in memory, and the file is
  shown as that text.
* A path takes the file exactly if it leads to a plain file, or to nothing where one can be, and the
  disk has room for the text and keeps it.  Whatever was there before, the path leads to a file with
  the text then, and nothing else has changed; behind a failure a plain file holds a beginning of
  the text.
* An option file that is generated for a run holds the text. -/
theorem written_as_rendered (f : OptionFile) :
    (∀ n stride refusal,
      let sink : Sink := { room := some n, stride, refusal }
      ((f.writeTo sink).1 = .ok () ↔ (Utf8.encode f.render).length ≤ n) ∧
      ((f.writeTo sink).1 = .ok () → (f.writeTo sink).2.held = Utf8.encode f.render) ∧
      ∀ e, (f.writeTo sink).1 = .error e →
        (f.writeTo sink).2.held <+: Utf8.encode f.render ∧ sink.Reports e) ∧
    (∀ stride refusal,
      let sink : Sink := { stride, refusal }
      (f.writeTo sink).1 = .ok () ∧ (f.writeTo sink).2.held = Utf8.encode f.render) ∧
    f.collected? = some f.render ∧ toString f = f.render ∧
    (∀ disk t p t', f.save disk t p = (t', .ok ()) ↔
      disk.Keeps (Utf8.encode f.render).length ∧
        ∃ l executable, t.Receives p l executable ∧
          t' = t.set l (.file (Utf8.encode f.render) executable)) ∧
    (∀ disk t p t', f.save disk t p = (t', .ok ()) → t'.contents p = .ok (Utf8.encode f.render)) ∧
    (∀ disk t p t' e l executable, t.Receives p l executable → f.save disk t p = (t', .error e) →
      ∃ held, held <+: Utf8.encode f.render ∧ t' = t.set l (.file held executable)) ∧
    ∀ t temporary root s style t' p warnings, style.exported.file = f →
      Config.resolve t temporary root s style = (t', .ok ⟨.generated p, warnings⟩) →
        t'.contents p = .ok (Utf8.encode f.render) := by
  refine ⟨fun n stride refusal => ?limited, fun stride refusal => ?unlimited, collected?_eq f, rfl,
    fun disk t p t' => save_eq_ok_iff, fun disk t p t' h => ?path,
    fun disk t p t' e l executable hreceives h => ?refused,
    fun t temporary root s style t' p warnings hfile h => ?generated⟩
  case limited =>
    intro sink
    refine ⟨?_, held_of_writeTo, fun e h => ⟨held_writeTo_isPrefix f sink, reports_of_writeTo h⟩⟩
    rw [writeTo_eq_ok_iff f (Sink.hasRoom_zero rfl)]
    simp [Sink.HasRoom, sink]
  case unlimited => exact writeTo_of_unlimited f _ rfl rfl
  case path =>
    obtain ⟨-, l, executable, hreceives, rfl⟩ := save_eq_ok_iff.mp h
    exact hreceives.contents_set _
  case refused =>
    rw [save_of_receives hreceives, Prod.mk.injEq] at h
    exact ⟨_, held_writeOut_isPrefix disk f, h.1.symm⟩
  case generated =>
    obtain ⟨l, hfind⟩ := Config.find_of_resolve_generated h
    rw [FileTree.contents_eq_ok hfind, hfile]

/-- A sink that is full before the end of a small file refuses only when the buffer is handed over
behind the last record. -/
example : ({ options := [⟨"nl", "1"⟩] } : OptionFile).writeTo { room := some 4 } =
    (.error (.other "sink closed"),
      { room := some 4, held := [0x6E, 0x6C, 0x20, 0x20], calls := 3 }) := by
  rfl

end SourceFormat.OptionFile
