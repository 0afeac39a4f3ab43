import Mathlib
import SourceFormat.Files.Tree

/-!
# Executions

A session, a task or a service is one state on which several parties act, and the steps of the
parties come in any order.  Such a machine is given by a partial function `next`: the label says
who acts and what the system answers, and there is no next state where the step is not possible.

An `Execution` is one finite order of steps.  It keeps the state at every time, so that a statement
can speak of what happened between two of its steps: of the displacement between a request's
entering and leaving of a table, or of the cancellation before an outcome.

**What a statement about executions does and does not say.**  It is about every order of steps and
every answer of the system, since both are in the labels.  It does not say that a step is ever
taken: progress is stated as the possibility of steps, where it is stated.
-/

namespace SourceFormat

/-- Steps that are taken one after another: `label i` leads from `state i` to `state (i + 1)`. -/
structure Execution {σ α : Type} (next : σ → α → Option σ) (start : σ) where
  /-- The number of steps. -/
  length : ℕ
  state : ℕ → σ
  label : ℕ → α
  state_zero : state 0 = start
  next_state : ∀ i, i < length → next (state i) (label i) = some (state (i + 1))

namespace Execution

variable {σ α : Type} {next : σ → α → Option σ} {start : σ}

/-- What every step keeps holds from one time on. -/
theorem invariant_from (x : Execution next start) {P : σ → Prop}
    (hP : ∀ s a s', P s → next s a = some s' → P s') {i k : ℕ} (hi : P (x.state i))
    (hik : i ≤ k) (hk : k ≤ x.length) : P (x.state k) := by
  induction k, hik using Nat.le_induction with
  | base => exact hi
  | succ k _ ih => exact hP _ _ _ (ih (by omega)) (x.next_state k (by omega))

/-- What holds at the start and is kept by every step holds all along. -/
theorem invariant (x : Execution next start) {P : σ → Prop} (h₀ : P start)
    (hP : ∀ s a s', P s → next s a = some s' → P s') {i : ℕ} (hi : i ≤ x.length) :
    P (x.state i) :=
  x.invariant_from hP (by rwa [x.state_zero]) (Nat.zero_le i) hi

/-- What does not hold at one time and holds at a later one has come about by a step. -/
theorem exists_step {P : ℕ → Prop} {i k : ℕ} (hik : i ≤ k) (hi : ¬ P i) (hk : P k) :
    ∃ j, i ≤ j ∧ j < k ∧ ¬ P j ∧ P (j + 1) := by
  induction k, hik using Nat.le_induction with
  | base => exact absurd hk hi
  | succ k hik ih =>
    by_cases hPk : P k
    · obtain ⟨j, hij, hjk, hj⟩ := ih hPk
      exact ⟨j, hij, by omega, hj⟩
    · exact ⟨k, hik, by omega, hPk, hk⟩

/-! ## Executions given by their labels -/

/-- Whether labels can be taken one after another. -/
def possible (next : σ → α → Option σ) : σ → List α → Bool
  | _, [] => true
  | s, a :: rest =>
    match next s a with
    | some s' => possible next s' rest
    | none => false

/-- The state that the first labels lead to, as far as they can be taken. -/
def stateAfter (next : σ → α → Option σ) : σ → List α → ℕ → σ
  | s, a :: rest, n + 1 =>
    match next s a with
    | some s' => stateAfter next s' rest n
    | none => s
  | s, _, _ => s

/-- A possible step before possible labels gives possible labels. -/
lemma possible_cons {s s' : σ} {a : α} {rest : List α} (hs : next s a = some s')
    (h : possible next s' rest = true) : possible next s (a :: rest) = true := by
  simpa [possible, hs] using h

/-- The states behind the first step are those of the rest. -/
lemma stateAfter_cons {s s' : σ} {a : α} (hs : next s a = some s') (rest : List α) (n : ℕ) :
    stateAfter next s (a :: rest) (n + 1) = stateAfter next s' rest n := by
  simp [stateAfter, hs]

/-- Possible labels step from each state to the next. -/
lemma next_stateAfter [Inhabited α] {labels : List α} {s : σ}
    (h : possible next s labels = true) {i : ℕ} (hi : i < labels.length) :
    next (stateAfter next s labels i) (labels.getD i default) =
      some (stateAfter next s labels (i + 1)) := by
  induction labels generalizing s i with
  | nil => simp at hi
  | cons a rest ih =>
    cases hs : next s a with
    | none => simp [possible, hs] at h
    | some s' =>
      cases i with
      | zero => cases rest <;> simp [stateAfter, hs]
      | succ i =>
        have := ih (s := s') (by simpa [possible, hs] using h) (i := i) (by simpa using hi)
        simpa [stateAfter, hs] using this

/-- The execution that takes some labels one after another. -/
def ofLabels [Inhabited α] (next : σ → α → Option σ) (start : σ) (labels : List α)
    (h : possible next start labels = true) : Execution next start where
  length := labels.length
  state := stateAfter next start labels
  label i := labels.getD i default
  state_zero := by cases labels <;> rfl
  next_state _ hi := next_stateAfter h hi

/-- An execution of labels goes through the states that the labels lead to. -/
lemma ofLabels_state [Inhabited α] (labels : List α) (h : possible next start labels = true)
    (n : ℕ) : (ofLabels next start labels h).state n = stateAfter next start labels n := rfl

/-- What steps of one kind lead to is the end of an execution of such steps. -/
theorem exists_of_reflTransGen [Inhabited α] {P : α → Prop} {s : σ}
    (h : Relation.ReflTransGen (fun s s' => ∃ a, P a ∧ next s a = some s') start s) :
    ∃ x : Execution next start, x.state x.length = s ∧ ∀ i, i < x.length → P (x.label i) := by
  obtain ⟨labels, hpossible, hstate, hP⟩ : ∃ labels, possible next start labels = true ∧
      stateAfter next start labels labels.length = s ∧ ∀ a ∈ labels, P a := by
    induction h using Relation.ReflTransGen.head_induction_on with
    | refl => exact ⟨[], rfl, rfl, by simp⟩
    | head hstep _ ih =>
      obtain ⟨a, ha, hnext⟩ := hstep
      obtain ⟨labels, hpossible, hstate, hP⟩ := ih
      exact ⟨a :: labels, possible_cons hnext hpossible,
        by rw [List.length_cons, stateAfter_cons hnext, hstate], List.forall_mem_cons.mpr ⟨ha, hP⟩⟩
  refine ⟨ofLabels next start labels hpossible, hstate, fun i hi => ?_⟩
  have hlabel : (ofLabels next start labels hpossible).label i = labels[i] :=
    List.getD_eq_getElem _ _ hi
  rw [hlabel]
  exact hP _ (List.getElem_mem _)

/-! ## Executions seen from one side

Somebody who sees a part of the state only, and only some of the steps, sees an execution as well,
if the steps that they do not see leave alone what they see. -/

/-- An execution with one more step. -/
def snoc (x : Execution next start) {a : α} {s : σ} (h : next (x.state x.length) a = some s) :
    Execution next start where
  length := x.length + 1
  state i := if i ≤ x.length then x.state i else s
  label i := if i < x.length then x.label i else a
  state_zero := by simp [x.state_zero]
  next_state i hi := by
    rcases Nat.lt_succ_iff_lt_or_eq.mp hi with hlt | rfl
    · simpa [hlt, hlt.le, Nat.succ_le_of_lt hlt] using x.next_state i hlt
    · simpa using h

/-- The number of steps that are seen before time `n`. -/
def seen {β : Type} (see : ℕ → Option β) (n : ℕ) : ℕ := Nat.count (fun j => (see j).isSome) n

/-- What is seen at a time counts from the next time on. -/
lemma seen_succ_of_some {β : Type} {see : ℕ → Option β} {n : ℕ} {b : β} (h : see n = some b) :
    seen see (n + 1) = seen see n + 1 := by
  simp [seen, Nat.count_succ, h]

/-- Where nothing is seen the count stays. -/
lemma seen_succ_of_none {β : Type} {see : ℕ → Option β} {n : ℕ} (h : see n = none) :
    seen see (n + 1) = seen see n := by
  simp [seen, Nat.count_succ, h]

/-- The count of what has been seen never falls. -/
lemma seen_mono {β : Type} {see : ℕ → Option β} {i k : ℕ} (h : i ≤ k) :
    seen see i ≤ seen see k :=
  Nat.count_monotone _ h

/-- What is seen at a time has been counted at every later one. -/
lemma seen_lt {β : Type} {see : ℕ → Option β} {i k : ℕ} {b : β} (h : see i = some b) (hik : i < k) :
    seen see i < seen see k := by
  have : seen see (i + 1) ≤ seen see k := seen_mono (Nat.succ_le_of_lt hik)
  rw [seen_succ_of_some h] at this
  omega

/-- What is seen of an execution is an execution. -/
theorem exists_seen {τ β : Type} [Inhabited β] {next' : τ → β → Option τ}
    (x : Execution next start) (view : σ → τ) (see : ℕ → Option β)
    (hsome : ∀ n b, n < x.length → see n = some b →
      next' (view (x.state n)) b = some (view (x.state (n + 1))))
    (hnone : ∀ n, n < x.length → see n = none → view (x.state (n + 1)) = view (x.state n)) :
    ∃ y : Execution next' (view start), y.length = seen see x.length ∧
      (∀ n, n ≤ x.length → y.state (seen see n) = view (x.state n)) ∧
      (∀ n b, n < x.length → see n = some b → y.label (seen see n) = b) := by
  suffices h : ∀ m, m ≤ x.length → ∃ y : Execution next' (view start), y.length = seen see m ∧
      (∀ n, n ≤ m → y.state (seen see n) = view (x.state n)) ∧
      (∀ n b, n < m → see n = some b → y.label (seen see n) = b) from h _ le_rfl
  intro m hm
  induction m with
  | zero =>
    refine ⟨ofLabels next' (view start) [] rfl, rfl, fun n hn => ?_, by omega⟩
    obtain rfl : n = 0 := by omega
    rw [x.state_zero]
    rfl
  | succ m ih =>
    obtain ⟨y, hlength, hstate, hlabel⟩ := ih (by omega)
    have hlast : y.state y.length = view (x.state m) := by rw [hlength, hstate m le_rfl]
    cases hsee : see m with
    | none =>
      -- nothing is seen of this step
      refine ⟨y, by rw [hlength, seen_succ_of_none hsee], fun n hn => ?_, fun n b hn hb => ?_⟩
      · rcases Nat.le_succ_iff.mp hn with hle | rfl
        · exact hstate n hle
        · rw [seen_succ_of_none hsee, hstate m le_rfl, hnone m (by omega) hsee]
      · rcases Nat.lt_succ_iff_lt_or_eq.mp hn with hlt | rfl
        · exact hlabel n b hlt hb
        · rw [hsee] at hb
          cases hb
    | some b =>
      have hnext := hsome m b (by omega) hsee
      rw [← hlast] at hnext
      refine ⟨y.snoc hnext, by simp [snoc, hlength, seen_succ_of_some hsee], fun n hn => ?_,
        fun n b' hn hb => ?_⟩
      · rcases Nat.le_succ_iff.mp hn with hle | rfl
        · have : seen see n ≤ seen see m := seen_mono hle
          simp only [snoc, hlength, if_pos this]
          exact hstate n hle
        · simp [snoc, hlength, seen_succ_of_some hsee]
      · rcases Nat.lt_succ_iff_lt_or_eq.mp hn with hlt | rfl
        · have := seen_lt hb hlt
          simp only [snoc, hlength, if_pos this]
          exact hlabel n b' hlt hb
        · rw [hsee] at hb
          cases hb
          simp [snoc, hlength]

/-! ## Executions that look alike

Two executions may differ in a part of what their labels hold.  Under a view that forgets this part
of the labels and what comes of it in the states, and under which the steps of the machine are still
steps, their states cannot be told apart. -/

/-- The executions have as many steps, and the labels of every two steps are related. -/
structure Alike (R : α → α → Prop) (x y : Execution next start) : Prop where
  length : y.length = x.length
  label : ∀ i, i < x.length → R (x.label i) (y.label i)

/-- Labels that are alike one by one make executions that are alike. -/
lemma ofLabels_alike [Inhabited α] {R : α → α → Prop} {labels labels' : List α}
    (hR : List.Forall₂ R labels labels') (h : possible next start labels = true)
    (h' : possible next start labels' = true) :
    (ofLabels next start labels h).Alike R (ofLabels next start labels' h') where
  length := hR.length_eq.symm
  label i hi := by
    have hi' : i < labels'.length := hR.length_eq ▸ hi
    have hlabel : (ofLabels next start labels h).label i = labels[i] :=
      List.getD_eq_getElem _ _ hi
    have hlabel' : (ofLabels next start labels' h').label i = labels'[i] :=
      List.getD_eq_getElem _ _ hi'
    rw [hlabel, hlabel']
    exact hR.get hi hi'

section view

variable {τ β : Type} {next' : τ → β → Option τ} {view : σ → τ} {see : α → β} {R : α → α → Prop}

/-- States that look the same go on looking the same behind labels that do. -/
lemma map_view_next (hview : ∀ s a, next' (view s) (see a) = (next s a).map view) {s s' : σ}
    {a a' : α} (hs : view s' = view s) (ha : see a' = see a) :
    (next s' a').map view = (next s a).map view := by
  rw [← hview, ← hview, hs, ha]

/-- Executions with related labels have states that look the same. -/
theorem Alike.view_state_eq (hview : ∀ s a, next' (view s) (see a) = (next s a).map view)
    (hR : ∀ a a', R a a' → see a' = see a) {x y : Execution next start} (h : x.Alike R y) {n : ℕ}
    (hn : n ≤ x.length) : view (y.state n) = view (x.state n) := by
  have hlength := h.length
  induction n with
  | zero => rw [x.state_zero, y.state_zero]
  | succ n ih =>
    have hstep := map_view_next hview (ih (by omega)) (hR _ _ (h.label n (by omega)))
    rw [x.next_state n (by omega), y.next_state n (by omega)] at hstep
    exact Option.some.inj hstep

/-- An execution can be taken with all other labels that are related to its own. -/
theorem exists_alike (hview : ∀ s a, next' (view s) (see a) = (next s a).map view)
    (hR : ∀ a a', R a a' → see a' = see a) [Inhabited α] (x : Execution next start)
    (labels : ℕ → α) (hlabels : ∀ i, i < x.length → R (x.label i) (labels i)) :
    ∃ y : Execution next start, x.Alike R y ∧ ∀ i, i < x.length → y.label i = labels i := by
  suffices h : ∀ m, m ≤ x.length → ∃ y : Execution next start, y.length = m ∧
      (∀ i, i < m → y.label i = labels i) ∧ view (y.state m) = view (x.state m) by
    obtain ⟨y, hlength, hlabel, -⟩ := h _ le_rfl
    exact ⟨y, ⟨hlength, fun i hi => hlabel i hi ▸ hlabels i hi⟩, hlabel⟩
  intro m hm
  induction m with
  | zero =>
    refine ⟨ofLabels next start [] rfl, rfl, fun i hi => absurd hi (Nat.not_lt_zero i), ?_⟩
    rw [x.state_zero, (ofLabels next start [] rfl).state_zero]
  | succ m ih =>
    obtain ⟨y, rfl, hlabel, hsame⟩ := ih (by omega)
    have hstep := map_view_next hview hsame (hR _ _ (hlabels y.length (by omega)))
    rw [x.next_state y.length (by omega), Option.map_some] at hstep
    obtain ⟨s, hs, hview'⟩ := Option.map_eq_some_iff.mp hstep
    refine ⟨y.snoc hs, rfl, fun i hi => ?_, by simpa [snoc] using hview'⟩
    rcases Nat.lt_succ_iff_lt_or_eq.mp hi with hlt | rfl
    · simpa [snoc, hlt] using hlabel i hlt
    · simp [snoc]

end view

end Execution

/-! ## Machines on files

Some machines work on files, which are there for everybody.  Such a machine is put together with
them, and between two of its steps anybody else may do with the files what they like. -/

/-- A machine and the files that it works on. -/
structure OnFiles (σ : Type) where
  machine : σ
  files : FileTree

namespace OnFiles

/-- What is done to a machine and its files. -/
inductive Turn (α : Type) where
  /-- The machine takes a step. -/
  | act (a : α)
  /-- Somebody else leaves the files like this. -/
  | others (files : FileTree)

instance {α : Type} [Inhabited α] : Inhabited (Turn α) := ⟨.act default⟩

variable {σ α : Type}

/-- The machine and its files behind a turn; none if it is not possible now. -/
def next (step : σ → FileTree → α → Option (σ × FileTree)) (s : OnFiles σ) :
    Turn α → Option (OnFiles σ)
  | .act a => (step s.machine s.files a).map fun (machine, files) => ⟨machine, files⟩
  | .others files => some { s with files }

/-- A turn is a step of the machine, or somebody else's change of the files. -/
lemma next_cases {step : σ → FileTree → α → Option (σ × FileTree)} {s s' : OnFiles σ} {a : Turn α}
    (h : next step s a = some s') :
    (∃ b, a = .act b ∧ step s.machine s.files b = some (s'.machine, s'.files)) ∨
      ∃ after, a = .others after ∧ s'.machine = s.machine ∧ s'.files = after := by
  cases a with
  | act b =>
    obtain ⟨⟨machine, files⟩, hstep, rfl⟩ := Option.map_eq_some_iff.mp h
    exact .inl ⟨b, rfl, hstep⟩
  | others after =>
    cases h
    exact .inr ⟨after, rfl, rfl, rfl⟩

/-- The same turn with something else that the machine does. -/
def Turn.map {β : Type} (see : α → β) : Turn α → Turn β
  | .act a => .act (see a)
  | .others files => .others files

/-- The turns are steps of the machine that are related, or the same change of the files. -/
inductive Turn.Alike (R : α → α → Prop) : Turn α → Turn α → Prop where
  | act {a a' : α} (h : R a a') : Alike R (.act a) (.act a')
  | others (files : FileTree) : Alike R (.others files) (.others files)

/-- A view that does not tell the labels apart does not tell the turns apart either. -/
lemma Turn.Alike.map_eq {β : Type} {R : α → α → Prop} {see : α → β}
    (hR : ∀ a a', R a a' → see a' = see a) {a a' : Turn α} (h : a.Alike R a') :
    a'.map see = a.map see := by
  cases h with
  | act h => rw [Turn.map, Turn.map, hR _ _ h]
  | others files => rfl

/-- A view of the machine, with the files as they are. -/
def map {τ : Type} (view : σ → τ) (s : OnFiles σ) : OnFiles τ := ⟨view s.machine, s.files⟩

/-- A view under which the steps of the machine are steps is one under which its turns are turns. -/
lemma next_map {τ β : Type} {step : σ → FileTree → α → Option (σ × FileTree)}
    {step' : τ → FileTree → β → Option (τ × FileTree)} {view : σ → τ} {see : α → β}
    (hview : ∀ m files a, step' (view m) files (see a) =
      (step m files a).map fun (m, files) => (view m, files)) (s : OnFiles σ) (a : Turn α) :
    next step' (s.map view) (a.map see) = (next step s a).map (OnFiles.map view) := by
  cases a with
  | act a => simp [next, OnFiles.map, Turn.map, hview, Function.comp_def]
  | others files => rfl

end OnFiles

end SourceFormat
