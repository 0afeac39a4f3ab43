import Mathlib
import SourceFormat.Proofs.Formatting.ServiceDisplacement

/-!
# How many formatters run for one document

A call that puts itself into the table marks and cancels the task that it found there, before it
runs its own.  But nobody waits for anybody else to do so.

* `two_live_runs`: while one caller is held up between finding a task in the table and marking it, a
  third one can come, take its place, and start a formatter beside the first one.
* `live_run_kept`: all the same, of the tasks with a running formatter only the one in the table
  stays.  Every other one is about to be cancelled: by somebody who is on the way to it, or by its
  own run, which looks at the mark again.

Nothing is said here about the processes of cancelled sessions, which are killed a little later.
-/

namespace SourceFormat.Formatting

namespace Service

/-- The formatter of this task is running. -/
def Live (s : Service) (key : Path.Key) (i : ℕ) : Prop :=
  ∃ t, s.tasks[i]? = some t ∧ t.request.fileName.key = key ∧ t.session.state = .started

/-- A cancellation of this task is under way. -/
def AboutToEnd (s : Service) (i : ℕ) : Prop :=
  s.Marks i ∨ s.Recalls i ∨
    ∃ t, s.tasks[i]? = some t ∧ t.superseded = true ∧ t.stage.LookingAgain

/-- At most one formatter is running for each document. -/
def OneLiveRun (s : Service) : Prop := ∀ key i j, s.Live key i → s.Live key j → i = j

variable {settings : Settings} {style : Style} {s : Service}

/-- A formatter runs for a call that waits for it. -/
lemma Coherent.running_of_live (h : s.Coherent) {key : Path.Key} {i : ℕ} (hl : s.Live key i) :
    ∃ (c : ℕ) (call : FormatCall), s.formats[c]? = some call ∧ call.stage = .running ∧
      call.key = key ∧ call.task = i := by
  obtain ⟨t, ht, hkey, hs⟩ := hl
  obtain ⟨c, call, hc, hne, rfl⟩ := h.owned ht
  obtain ⟨-, t', ht', hreq, hfits⟩ := h.known hc hne
  obtain rfl := Option.some.inj (ht.symm.trans ht')
  have hcoherent := (h.task ht).1
  have hunrun : t.stage ≠ .unrun := fun hu => by
    rw [hcoherent.fresh (by simp [hu, Task.Stage.position])] at hs
    cases hs
  have hreturned : ∀ o, t.stage ≠ .returned o := fun o ho =>
    hcoherent.settled (by simp [ho, Task.Stage.position]) hs
  refine ⟨c, call, hc, ?_, by rw [FormatCall.key, ← hreq, hkey], rfl⟩
  cases hstage : call.stage with
  | arrived => exact absurd hstage hne
  | running => rfl
  | numbered | marking | recalling =>
    rw [hstage] at hfits
    exact absurd hfits hunrun
  | leaving o =>
    rw [hstage] at hfits
    exact absurd hfits (hreturned o)
  | returned o =>
    rw [hstage] at hfits
    obtain ⟨o', ho'⟩ := hfits
    exact absurd ho' (hreturned o')

/-- A task whose formatter runs is the one in the table, or it is about to end. -/
lemma Coherent.entry_of_live (h : s.Coherent) {key : Path.Key} {i : ℕ} (hl : s.Live key i) :
    (∃ id, s.entry? key = some (id, i)) ∨ s.AboutToEnd i := by
  obtain ⟨c, call, hc, hrun, rfl, rfl⟩ := h.running_of_live hl
  by_cases he : s.entry? call.key = some (call.id, call.task)
  · exact .inl ⟨_, he⟩
  · refine .inr ?_
    rcases h.displaced hc (by rw [hrun]; trivial) he with hmarks | ⟨t, ht, hm⟩
    · exact .inl hmarks
    · -- the mark of a running formatter is about to be acted on
      obtain ⟨t', ht', -, hs⟩ := hl
      obtain rfl := Option.some.inj (ht.symm.trans ht')
      exact .inr (((h.task ht).2.2 hm hs).imp_right fun hlook => ⟨t, ht, hm, hlook⟩)

/-- **The live run is the one in the table.** In every order of the steps of any number of calls, a
task with a running formatter is in the table for its document, or a cancellation of it is under
way.  So of two running formatters for one document, one at least is about to be cancelled. -/
theorem live_run_kept (x : Run settings style) :
    (∀ n key i, n ≤ x.length → (x.state n).Live key i →
      (∃ id, entry? (x.state n) key = some (id, i)) ∨ (x.state n).AboutToEnd i) ∧
    (∀ n key i j, n ≤ x.length → (x.state n).Live key i → (x.state n).Live key j → i ≠ j →
      (x.state n).AboutToEnd i ∨ (x.state n).AboutToEnd j) := by
  constructor
  · intro n key i hn hl
    exact (coherent_state x hn).entry_of_live hl
  · intro n key i j hn hi hj hne
    have h := coherent_state x hn
    rcases h.entry_of_live hi with ⟨id, he⟩ | hi
    · rcases h.entry_of_live hj with ⟨id', he'⟩ | hj
      · rw [he] at he'
        exact absurd (Prod.mk.inj (Option.some.inj he')).2 hne
      · exact .inr hj
    · exact .inl hi

/-- A run in which the second of three callers is held up on its way to the task of the first. -/
def heldUp : Run Task.namedOptions {} :=
  Execution.ofLabels next _
    (onSmall
      [[.format (document "1")], List.replicate 8 (.stepFormat 0), [.format (document "2")],
        List.replicate 2 (.stepFormat 1), [.format (document "3")],
        List.replicate 9 (.stepFormat 2)])
    (by decide +kernel)

/-- While the second caller is held up, the third is in the table and the first is about to end. -/
theorem live_run_kept_heldUp :
    (∃ id, entry? (heldUp.state 22) (document "1").fileName.key = some (id, 2)) ∧
      (heldUp.state 22).AboutToEnd 0 := by
  have h := (live_run_kept heldUp).1 22 (document "1").fileName.key
  have hfirst : (heldUp.state 22).Live (document "1").fileName.key 0 := ⟨_, rfl, rfl, rfl⟩
  have hthird : (heldUp.state 22).Live (document "1").fileName.key 2 := ⟨_, rfl, rfl, rfl⟩
  have hentry : entry? (heldUp.state 22) (document "1").fileName.key = some (2, 2) := by
    decide +kernel
  refine ⟨⟨2, hentry⟩, (h 0 (by decide) hfirst).resolve_left ?_⟩
  rintro ⟨id, he⟩
  rw [hentry] at he
  cases he

/-- More than one formatter can run for a document, as long as a caller is held up. -/
theorem two_live_runs : 22 ≤ heldUp.length ∧ ¬ (heldUp.state 22).OneLiveRun := by
  refine ⟨by decide, fun h => ?_⟩
  have heq := h (document "1").fileName.key 0 2 ⟨_, rfl, rfl, rfl⟩ ⟨_, rfl, rfl, rfl⟩
  cases heq

end Service

end SourceFormat.Formatting
