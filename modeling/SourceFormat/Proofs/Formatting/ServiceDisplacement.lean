import Mathlib
import SourceFormat.Proofs.Formatting.ServiceCoherence

/-!
# Which outcomes are dropped

A call to format is in the table from the step by which it puts itself there to the step by which
it takes itself out again, or finds that it is not there any more.  In between its place can be
lost: to another call for the same document, or to a cancellation that takes it out.

`cancelled_iff_displaced`: in every order of the steps of any number of calls, a call returns
`cancelled` if and only if its place was lost in between.  Otherwise it returns what its task came
to.  So of the calls for one document that return something else, no two are in the table at a time.

It does not say that what is returned is newer than what another call returns: calls that were not
displaced are told apart by the table only.
-/

namespace SourceFormat.Formatting

namespace Service

/-- One order of everything that is done to a new service. -/
abbrev Run (settings : Settings) (style : Style) := Execution next { settings, style }

/-- The call finds itself in the table. -/
def Owns (s : Service) (c : ℕ) : Prop :=
  ∃ call, s.formats[c]? = some call ∧ s.entry? call.key = some (call.id, call.task)

/-- By this step the call loses its place: another one for the same document puts itself into the
table, or a cancellation takes the call out of it. -/
def Displaces (s : Service) (a : Action) (c : ℕ) : Prop :=
  ∃ call, s.formats[c]? = some call ∧
    ((∃ (d : ℕ) (call' : FormatCall), a = .stepFormat d ∧ d ≠ c ∧ s.formats[d]? = some call' ∧
      call'.stage = .numbered ∧ call'.key = call.key) ∨
    (∃ (d task : ℕ) (call' : CancelCall), a = .stepCancel d ∧ s.cancels[d]? = some call' ∧
      call'.stage = .arrived ∧ call'.key = call.key ∧
      s.entry? call.key = some (call.id, task)))

variable {settings : Settings} {style : Style} {s s' : Service} {env : Task.Surroundings}
  {files : FileTree} {a : Action}

namespace Run

/-- Step `i` puts the call into the table. -/
def InsertsAt (x : Run settings style) (c i : ℕ) : Prop :=
  i < x.length ∧ (x.label i).action = .stepFormat c ∧
    ∃ call, (x.state i).formats[c]? = some call ∧ call.stage = .numbered

/-- By step `k` the call looks for itself in the table, to take itself out of it. -/
def LeavesAt (x : Run settings style) (c k : ℕ) : Prop :=
  k < x.length ∧ (x.label k).action = .stepFormat c ∧
    ∃ call o, (x.state k).formats[c]? = some call ∧ call.stage = .leaving o

/-- The call is in flight from step `i` to step `k`. -/
def Occupies (x : Run settings style) (c i k : ℕ) : Prop :=
  i < k ∧ x.InsertsAt c i ∧ x.LeavesAt c k

/-- Between two steps the call loses its place. -/
def Displaced (x : Run settings style) (c i k : ℕ) : Prop :=
  ∃ j, i < j ∧ j < k ∧ (x.state j).Displaces (x.label j).action c

/-- The call for this request returns this outcome. -/
def Returns (x : Run settings style) (c : ℕ) (r : Request) (o : Outcome) : Prop :=
  ∃ n call, n ≤ x.length ∧ (x.state n).formats[c]? = some call ∧ call.request = r ∧
    call.stage = .returned o

end Run

/-! ## Calls go forward -/

/-- How far a call has come. -/
def FormatStage.position : FormatStage → ℕ
  | arrived => 1
  | numbered => 2
  | marking _ => 3
  | recalling _ => 4
  | running => 5
  | leaving _ => 6
  | returned _ => 7

/-- How far call `c` has come; nowhere before it is made. -/
def progress (s : Service) (c : ℕ) : ℕ :=
  match s.formats[c]? with
  | some call => call.stage.position
  | none => 0

/-- A call has come as far as its stage says. -/
lemma progress_eq {c : ℕ} {call : FormatCall} (hc : s.formats[c]? = some call) :
    s.progress c = call.stage.position := by
  simp [progress, hc]

/-- Whatever has come anywhere is a call. -/
lemma exists_of_progress {c : ℕ} (h : 0 < s.progress c) :
    ∃ call, s.formats[c]? = some call ∧ call.stage.position = s.progress c := by
  unfold progress at h ⊢
  cases hc : s.formats[c]? with
  | none => simp [hc] at h
  | some call => exact ⟨call, rfl, rfl⟩

/-- The stages in flight are those from the entry to the exit. -/
lemma FormatStage.inFlight_iff (stage : FormatStage) :
    stage.InFlight ↔ 3 ≤ stage.position ∧ stage.position ≤ 6 := by
  cases stage <;> simp [InFlight, position]

/-- A call that gets on gets further. -/
lemma FormatCall.Advances.position_lt {call call' : FormatCall} (h : call.Advances s s' call') :
    call.stage.position < call'.stage.position := by
  cases h with
  | insert hs =>
    unfold FormatStage.ofDisplaced
    split <;> simp [hs, FormatStage.position]
  | number hs | mark hs | callOff hs | refuse hs | finish hs | leave hs | leaveStale hs =>
    simp [hs, FormatStage.position]

/-- No call ever goes back. -/
lemma progress_le_next (hm : Moves s env files a s') (c : ℕ) : s.progress c ≤ s'.progress c := by
  cases formatMoves hm c with
  | stays h => simp [progress, h]
  | arrives r h => simp [progress, h]
  | advances _ h h' hadv =>
    rw [progress_eq h, progress_eq h']
    exact hadv.position_lt.le

/-- A call that comes further takes its step, or has just been made. -/
lemma advances_of_progress_lt (hm : Moves s env files a s') {c : ℕ}
    (hlt : s.progress c < s'.progress c) (hone : 1 < s'.progress c) :
    a = .stepFormat c ∧ ∃ call call', s.formats[c]? = some call ∧ s'.formats[c]? = some call' ∧
      call.Advances s s' call' := by
  cases formatMoves hm c with
  | stays h => simp [progress, h] at hlt
  | arrives r _ h' => simp [progress_eq h', FormatStage.position] at hone
  | advances ha h h' hadv => exact ⟨ha, _, _, h, h', hadv⟩

/-- A call keeps its request. -/
lemma request_next (hm : Moves s env files a s') {c : ℕ} {call : FormatCall}
    (hc : s.formats[c]? = some call) :
    ∃ call', s'.formats[c]? = some call' ∧ call'.request = call.request := by
  rcases format_after hm hc with hsame | ⟨call', hc', hadv⟩
  · exact ⟨call, hsame, rfl⟩
  · exact ⟨call', hc', by cases hadv <;> rfl⟩

/-- What has returned stays as it is. -/
lemma returned_next (hm : Moves s env files a s') {c : ℕ} {call : FormatCall} {o : Outcome}
    (hc : s.formats[c]? = some call) (hs : call.stage = .returned o) :
    s'.formats[c]? = some call := by
  rcases format_after hm hc with hsame | ⟨call', -, hadv⟩
  · exact hsame
  · cases hadv with
    | number hs' | insert hs' | mark hs' | callOff hs' | refuse hs' | finish hs' | leave hs'
    | leaveStale hs' => cases hs.symm.trans hs'

/-! ## Keeping and losing a place -/

/-- No two calls have the same number. -/
lemma Coherent.eq_of_id (h : s.Coherent) {c d : ℕ} {call call' : FormatCall}
    (hc : s.formats[c]? = some call) (hs : call.stage ≠ .arrived)
    (hd : s.formats[d]? = some call') (hs' : call'.stage ≠ .arrived) (hid : call.id = call'.id) :
    c = d :=
  h.apart hc hs hd hs' (by rw [← (h.known hc hs).1, hid, (h.known hd hs').1])

/-- A call in flight is another one, with another number, than a call that is about to enter. -/
lemma Coherent.ne_of_inFlight (h : s.Coherent) {c d : ℕ} {call call' : FormatCall}
    (hc : s.formats[c]? = some call) (hs : call.stage.InFlight)
    (hd : s.formats[d]? = some call') (hs' : call'.stage = .numbered) :
    c ≠ d ∧ call.id ≠ call'.id := by
  have hne : c ≠ d := by
    rintro rfl
    obtain rfl := Option.some.inj (hc.symm.trans hd)
    rw [hs'] at hs
    exact hs
  exact ⟨hne, fun hid => hne (h.eq_of_id hc hs.ne_arrived hd (by simp [hs']) hid)⟩

/-- Behind a step that displaces it a call is not in the table. -/
lemma Coherent.entry_ne_of_displaces (h : s.Coherent) (hm : Moves s env files a s') {c : ℕ}
    {call : FormatCall} (hc : s.formats[c]? = some call) (hs : call.stage.InFlight)
    (hd : s.Displaces a c) : s'.entry? call.key ≠ some (call.id, call.task) := by
  intro he'
  obtain ⟨call₀, hc₀, hd⟩ := hd
  obtain rfl := Option.some.inj (hc.symm.trans hc₀)
  rcases hd with ⟨d, call₁, ha, -, hd₁, hs₁, hkey⟩ | ⟨d, task, call₁, ha, hd₁, hs₁, hkey, he⟩
  · subst ha
    obtain ⟨_, _, hadv⟩ := advances_of_stepFormat hm hd₁ (by simp [hs₁])
    cases hadv with
    | insert _ hentry =>
      rw [hkey, he'] at hentry
      exact (h.ne_of_inFlight hc hs hd₁ hs₁).2 (Prod.mk.inj (Option.some.inj hentry)).1
    | number hs₂ | mark hs₂ | callOff hs₂ | refuse hs₂ | finish hs₂ | leave hs₂
    | leaveStale hs₂ => cases hs₁.symm.trans hs₂
  · subst ha
    obtain ⟨_, _, hadv⟩ := advances_of_stepCancel hm hd₁
    cases hadv with
    | withdraw _ _ hnone =>
      rw [hkey, he'] at hnone
      cases hnone
    | withdrawNothing _ hnone =>
      rw [hkey, he] at hnone
      cases hnone
    | mark hs₂ | callOff hs₂ => cases hs₁.symm.trans hs₂

/-- A call finds itself if the entry of its document has its number and its task. -/
lemma owns_iff {c : ℕ} {call : FormatCall} (hc : s.formats[c]? = some call) :
    s.Owns c ↔ s.entry? call.key = some (call.id, call.task) := by
  constructor
  · rintro ⟨call', hc', he⟩
    rwa [Option.some.inj (hc.symm.trans hc')]
  · exact fun he => ⟨call, hc, he⟩

/-- A call in flight stays in the table as long as it is not displaced, and no longer. -/
lemma Coherent.owns_next (h : s.Coherent) (hm : Moves s env files a s') {c : ℕ}
    {call call' : FormatCall} (hc : s.formats[c]? = some call) (hs : call.stage.InFlight)
    (hc' : s'.formats[c]? = some call') (hs' : call'.stage.InFlight) :
    s'.Owns c ↔ s.Owns c ∧ ¬ s.Displaces a c := by
  have howns' : s'.Owns c ↔ s'.entry? call.key = some (call.id, call.task) := by
    obtain ⟨call₀, hc₀, -, hid, htask, hreq⟩ := format_persists hm hc hs.ne_arrived
    rw [owns_iff hc₀, hid, htask, FormatCall.key, hreq, FormatCall.key]
  rw [howns', owns_iff hc]
  constructor
  · intro he'
    refine ⟨?_, fun hd => h.entry_ne_of_displaces hm hc hs hd he'⟩
    cases entryMoves hm call.key with
    | stays hsame => exact hsame.symm.trans he'
    | inserts _ hd hs₁ _ _ hentry =>
      rw [he'] at hentry
      exact absurd (Prod.mk.inj (Option.some.inj hentry)).1 (h.ne_of_inFlight hc hs hd hs₁).2
    | leaves _ _ _ _ _ _ hnone | withdraws _ _ _ _ _ _ hnone =>
      rw [he'] at hnone
      cases hnone
  · rintro ⟨he, hnot⟩
    cases entryMoves hm call.key with
    | stays hsame => exact hsame.trans he
    | inserts ha hd hs₁ hkey =>
      have hne := (h.ne_of_inFlight hc hs hd hs₁).1
      exact absurd ⟨call, hc, .inl ⟨_, _, ha, hne.symm, hd, hs₁, hkey⟩⟩ hnot
    | leaves _ hd hs₁ _ hd' hentry =>
      -- only the call itself takes its entry out, and it is not in flight behind that
      rw [he] at hentry
      obtain rfl := h.eq_of_id hc hs.ne_arrived hd (by simp [hs₁])
        (Prod.mk.inj (Option.some.inj hentry)).1
      obtain rfl := Option.some.inj (hd'.symm.trans hc')
      exact hs'.elim
    | withdraws ha hd hs₁ hkey =>
      exact absurd ⟨call, hc, .inr ⟨_, _, _, ha, hd, hs₁, hkey, he⟩⟩ hnot

/-- Behind its last step a call has returned: what its task came to if the call was in the table. -/
lemma Coherent.returned_of_leaving (h : s.Coherent) {c : ℕ} {call : FormatCall} {o : Outcome}
    (hm : Moves s env files (.stepFormat c) s') (hc : s.formats[c]? = some call)
    (hs : call.stage = .leaving o) : ∃ call', s'.formats[c]? = some call' ∧
      ((s.Owns c ∧ call'.stage = .returned o) ∨
        (¬ s.Owns c ∧ call'.stage = .returned .cancelled)) := by
  obtain ⟨_, hc', hadv⟩ := advances_of_stepFormat hm hc (by simp [hs])
  rw [owns_iff hc]
  cases hadv with
  | @leave o' task hs' he =>
    cases hs.symm.trans hs'
    refine ⟨_, hc', .inl ⟨?_, rfl⟩⟩
    -- what the entry holds besides the number is the task of the same call
    obtain ⟨-, d, call', hd, hs₁, -, hid, htask⟩ := h.listed he
    obtain rfl := h.eq_of_id hd hs₁.ne_arrived hc (by simp [hs]) hid
    obtain rfl := Option.some.inj (hd.symm.trans hc)
    rw [he, htask]
  | leaveStale hs' he => exact ⟨_, hc', .inr ⟨he _, rfl⟩⟩
  | number hs' | insert hs' | mark hs' | callOff hs' | refuse hs' | finish hs' =>
    cases hs.symm.trans hs'

/-- A task whose call is in the table has not been cancelled. -/
lemma Coherent.ne_cancelled_of_owns (h : s.Coherent) {c : ℕ} {call : FormatCall} {o : Outcome}
    (hc : s.formats[c]? = some call) (hs : call.stage = .leaving o) (howns : s.Owns c) :
    o ≠ .cancelled := by
  rintro rfl
  obtain ⟨hnot, -⟩ := h.listed ((owns_iff hc).mp howns)
  obtain ⟨-, t, ht, -, hfits⟩ := h.known hc (by simp [hs])
  rw [hs] at hfits
  have hm : t.superseded = false := by
    by_contra hne
    exact hnot (.inr ⟨t, ht, by simpa using hne⟩)
  have hheeded := (h.task ht).2.1 hm
  exact hheeded.outcome (by rw [show t.stage = _ from hfits]; rfl)

/-! ## Runs -/

/-- Every step of a run is a move. -/
lemma moves_run (x : Run settings style) {i : ℕ} (hi : i < x.length) :
    Moves (x.state i) (x.label i).env (x.label i).files (x.label i).action (x.state (i + 1)) :=
  moves_of_next (x.next_state i hi)

/-- A service is in order at every time of a run. -/
lemma coherent_state (x : Run settings style) {i : ℕ} (hi : i ≤ x.length) :
    (x.state i).Coherent :=
  x.invariant (coherent_new settings style) (fun _ _ _ h hnext => h.next (moves_of_next hnext)) hi

/-- In a run no call ever goes back. -/
lemma progress_le (x : Run settings style) (c : ℕ) {i k : ℕ} (hik : i ≤ k) (hk : k ≤ x.length) :
    (x.state i).progress c ≤ (x.state k).progress c :=
  x.invariant_from (P := fun s => (x.state i).progress c ≤ s.progress c)
    (fun _ _ _ h hnext => h.trans (progress_le_next (moves_of_next hnext) c)) le_rfl hik hk

/-- In a run a call keeps its request. -/
lemma request_eq (x : Run settings style) {c i k : ℕ} {call call' : FormatCall} (hik : i ≤ k)
    (hk : k ≤ x.length) (hc : (x.state i).formats[c]? = some call)
    (hc' : (x.state k).formats[c]? = some call') : call'.request = call.request := by
  obtain ⟨call₀, hc₀, hreq⟩ := x.invariant_from
    (P := fun s => ∃ call', s.formats[c]? = some call' ∧ call'.request = call.request)
    (fun _ _ _ ⟨_, h, hreq⟩ hnext => by
      obtain ⟨call', hc', hreq'⟩ := request_next (moves_of_next hnext) h
      exact ⟨call', hc', hreq'.trans hreq⟩) ⟨call, hc, rfl⟩ hik hk
  rwa [← Option.some.inj (hc₀.symm.trans hc')]

/-- A call that has returned stays as it is. -/
lemma returned_of_le (x : Run settings style) {c i k : ℕ} {call : FormatCall} {o : Outcome}
    (hik : i ≤ k) (hk : k ≤ x.length) (hc : (x.state i).formats[c]? = some call)
    (hs : call.stage = .returned o) : (x.state k).formats[c]? = some call :=
  x.invariant_from (P := fun s => s.formats[c]? = some call)
    (fun _ _ _ h hnext => returned_next (moves_of_next hnext) h hs) hc hik hk

namespace Run

variable {x : Run settings style} {c d i k i' k' : ℕ}

/-- A call that is about to enter the table has its number and nothing else. -/
lemma InsertsAt.progress_eq (h : x.InsertsAt c i) : (x.state i).progress c = 2 := by
  obtain ⟨-, -, call, hc, hs⟩ := h
  rw [Service.progress_eq hc, hs]
  rfl

/-- A call that is about to leave the table has been in flight. -/
lemma LeavesAt.progress_eq (h : x.LeavesAt c k) : (x.state k).progress c = 6 := by
  obtain ⟨-, -, call, o, hc, hs⟩ := h
  rw [Service.progress_eq hc, hs]
  rfl

/-- Behind its insertion the call is in flight and in the table. -/
lemma InsertsAt.owns (h : x.InsertsAt c i) :
    (x.state (i + 1)).Owns c ∧ 3 ≤ (x.state (i + 1)).progress c := by
  obtain ⟨hi, ha, call, hc, hs⟩ := h
  have hm := moves_run x hi
  rw [ha] at hm
  obtain ⟨_, hc', hadv⟩ := advances_of_stepFormat hm hc (by simp [hs])
  have hlt := hadv.position_lt
  rw [hs] at hlt
  rw [Service.progress_eq hc']
  refine ⟨?_, hlt⟩
  cases hadv with
  | insert _ he => exact ⟨_, hc', he⟩
  | number hs' | mark hs' | callOff hs' | refuse hs' | finish hs' | leave hs' | leaveStale hs' =>
    cases hs.symm.trans hs'

/-- From its entry to its exit a call is in flight. -/
lemma Occupies.inFlight (h : x.Occupies c i k) {m : ℕ} (him : i < m) (hmk : m ≤ k) :
    ∃ call, (x.state m).formats[c]? = some call ∧ call.stage.InFlight := by
  obtain ⟨-, hi, hk⟩ := h
  have hk' := hk.1
  have hlow := progress_le x c (i := i + 1) (k := m) him (by omega)
  have hhigh := progress_le x c (i := m) (k := k) hmk (by omega)
  rw [hk.progress_eq] at hhigh
  have hthree := hi.owns.2
  obtain ⟨call, hc, hpos⟩ := exists_of_progress (s := x.state m) (c := c) (by omega)
  exact ⟨call, hc, (FormatStage.inFlight_iff _).mpr (by omega)⟩

/-- By its last step the call returns what its task has come to, if the call is in the table. -/
lemma LeavesAt.returns (h : x.LeavesAt c k) : ∃ call call' o,
    (x.state k).formats[c]? = some call ∧ call.stage = .leaving o ∧
    (x.state (k + 1)).formats[c]? = some call' ∧
    (((x.state k).Owns c ∧ call'.stage = .returned o) ∨
      (¬ (x.state k).Owns c ∧ call'.stage = .returned .cancelled)) := by
  obtain ⟨hk, ha, call, o, hc, hs⟩ := h
  have hm := moves_run x hk
  rw [ha] at hm
  obtain ⟨call', hc', hret⟩ := (coherent_state x (le_of_lt hk)).returned_of_leaving hm hc hs
  exact ⟨call, call', o, hc, hs, hc', hret⟩

/-- A call that leaves the table returns by the same step. -/
lemma LeavesAt.progress_succ (h : x.LeavesAt c k) : (x.state (k + 1)).progress c = 7 := by
  rcases h.returns with ⟨call, call', o, -, -, hc', ⟨-, hs⟩ | ⟨-, hs⟩⟩ <;>
    rw [Service.progress_eq hc', hs] <;> rfl

/-- Until it leaves, a call is in the table if and only if nothing has displaced it. -/
lemma Occupies.owns_iff (h : x.Occupies c i k) {m : ℕ} (him : i < m) (hmk : m ≤ k) :
    (x.state m).Owns c ↔ ¬ x.Displaced c i m := by
  have hk := h.2.2.1
  induction m, him using Nat.le_induction with
  | base =>
    refine iff_of_true h.2.1.owns.1 ?_
    rintro ⟨j, hij, hjm, -⟩
    omega
  | succ m him ih =>
    have hi : i < m := him
    obtain ⟨call, hc, hs⟩ := h.inFlight hi (by omega)
    obtain ⟨call', hc', hs'⟩ := h.inFlight (m := m + 1) (by omega) hmk
    have hnext := (coherent_state x (i := m) (by omega)).owns_next (moves_run x (by omega)) hc hs
      hc' hs'
    have hbefore : (x.state m).Owns c ↔ ¬ x.Displaced c i m := ih (by omega)
    rw [hnext, hbefore]
    constructor
    · rintro ⟨hbefore, hnow⟩ ⟨j, hij, hjm, hj⟩
      rcases Nat.lt_succ_iff_lt_or_eq.mp hjm with hj' | rfl
      · exact hbefore ⟨j, hij, hj', hj⟩
      · exact hnow hj
    · intro hnot
      refine ⟨?_, fun hj => hnot ⟨m, hi, by omega, hj⟩⟩
      rintro ⟨j, hij, hjm, hj⟩
      exact hnot ⟨j, hij, by omega, hj⟩

/-- A call that has returned was in flight before. -/
lemma exists_occupies {r : Request} {o : Outcome} (h : x.Returns c r o) :
    ∃ i k, x.Occupies c i k := by
  obtain ⟨n, call, hn, hc, -, hs⟩ := h
  have hzero : (x.state 0).progress c = 0 := by simp [x.state_zero, progress]
  have hseven : (x.state n).progress c = 7 := by
    rw [Service.progress_eq hc, hs]
    rfl
  -- the call was nowhere at first, so it has passed its entry and its exit on the way
  obtain ⟨i, -, hin, hi, hi'⟩ := Execution.exists_step
    (P := fun j => 3 ≤ (x.state j).progress c) (Nat.zero_le n) (by omega) (by omega)
  obtain ⟨k, -, hkn, hk, hk'⟩ := Execution.exists_step
    (P := fun j => 7 ≤ (x.state j).progress c) (Nat.zero_le n) (by omega) (by omega)
  have hinserts : x.InsertsAt c i := by
    obtain ⟨ha, call, call', hc, hc', hadv⟩ :=
      advances_of_progress_lt (c := c) (moves_run x (i := i) (by omega)) (by omega) (by omega)
    rw [Service.progress_eq hc] at hi
    rw [Service.progress_eq hc'] at hi'
    refine ⟨by omega, ha, call, hc, ?_⟩
    cases hadv with
    | insert hs => exact hs
    | number => simp [FormatStage.position] at hi'
    | mark hs | callOff hs | refuse hs | finish hs | leave hs | leaveStale hs =>
      simp [hs, FormatStage.position] at hi
  have hleaves : x.LeavesAt c k := by
    obtain ⟨ha, call, call', hc, hc', hadv⟩ :=
      advances_of_progress_lt (c := c) (moves_run x (i := k) (by omega)) (by omega) (by omega)
    rw [Service.progress_eq hc'] at hk'
    refine ⟨by omega, ha, call, ?_⟩
    cases hadv with
    | leave hs | leaveStale hs => exact ⟨_, hc, hs⟩
    | insert =>
      exact absurd hk' (by unfold FormatStage.ofDisplaced; split <;> simp [FormatStage.position])
    | _ => simp [FormatStage.position] at hk'
  refine ⟨i, k, ?_, hinserts, hleaves⟩
  by_contra hki
  have := progress_le x c (i := k) (k := i) (by omega) (by omega)
  rw [hinserts.progress_eq, hleaves.progress_eq] at this
  omega

/-- A call is in flight once. -/
lemma Occupies.unique (h : x.Occupies c i k) (h' : x.Occupies c i' k') : i = i' ∧ k = k' := by
  -- behind its step a call has come further, and it never goes back
  have hinsert : ∀ {i i' : ℕ}, x.InsertsAt c i → x.InsertsAt c i' → ¬ i < i' := by
    intro i i' hi hi' hlt
    have := progress_le x c (i := i + 1) (k := i') hlt (le_of_lt hi'.1)
    rw [hi'.progress_eq] at this
    have := hi.owns.2
    omega
  have hleave : ∀ {k k' : ℕ}, x.LeavesAt c k → x.LeavesAt c k' → ¬ k < k' := by
    intro k k' hk hk' hlt
    have := progress_le x c (i := k + 1) (k := k') hlt (le_of_lt hk'.1)
    rw [hk'.progress_eq] at this
    have := hk.progress_succ
    omega
  have := hinsert h.2.1 h'.2.1
  have := hinsert h'.2.1 h.2.1
  have := hleave h.2.2 h'.2.2
  have := hleave h'.2.2 h.2.2
  omega

/-- What a call returns is settled by its last step. -/
lemma Occupies.returns (h : x.Occupies c i k) {r : Request} {o : Outcome} (hr : x.Returns c r o) :
    (x.Displaced c i k ∧ o = .cancelled) ∨
      (¬ x.Displaced c i k ∧ o ≠ .cancelled ∧ ∃ call t, (x.state k).formats[c]? = some call ∧
        (x.state k).tasks[call.task]? = some t ∧ t.request = r ∧ t.outcome? = some o) := by
  obtain ⟨n, last, hn, hlast, hreq, hreturned⟩ := hr
  have hk := h.2.2
  obtain ⟨call, call', o', hc, hs, hc', hret⟩ := hk.returns
  have hkn : k + 1 ≤ n := by
    by_contra hlt
    have := progress_le x c (i := n) (k := k) (by omega) (le_of_lt hk.1)
    rw [Service.progress_eq hlast, hreturned, hk.progress_eq] at this
    exact absurd this (by simp [FormatStage.position])
  have howns := h.owns_iff h.1 le_rfl
  have hcoherent := coherent_state x (le_of_lt hk.1)
  rcases hret with ⟨hown, hs'⟩ | ⟨hown, hs'⟩
  · -- the call has found itself in the table
    obtain rfl := Option.some.inj ((returned_of_le x hkn hn hc' hs').symm.trans hlast)
    cases hs'.symm.trans hreturned
    refine .inr ⟨howns.mp hown, hcoherent.ne_cancelled_of_owns hc hs hown, call, ?_⟩
    obtain ⟨-, t, ht, htask, hfits⟩ := hcoherent.known hc (by simp [hs])
    rw [hs] at hfits
    have hcall := request_eq x (Nat.le_succ k) hk.1 hc hc'
    exact ⟨t, hc, ht, htask.trans (hcall.symm.trans hreq), Task.outcome?_eq_some_iff.mpr hfits⟩
  · obtain rfl := Option.some.inj ((returned_of_le x hkn hn hc' hs').symm.trans hlast)
    cases hs'.symm.trans hreturned
    exact .inl ⟨by_contra fun hnot => hown (howns.mpr hnot), rfl⟩

/-- A call returns for the request that it was made with. -/
lemma Returns.request_eq {r : Request} {o : Outcome} (h : x.Returns c r o) {m : ℕ}
    (hm : m ≤ x.length) {call : FormatCall} (hc : (x.state m).formats[c]? = some call) :
    call.request = r := by
  obtain ⟨n, last, hn, hlast, rfl, -⟩ := h
  rcases le_total m n with hmn | hnm
  · exact (Service.request_eq x hmn hn hc hlast).symm
  · exact Service.request_eq x hnm hm hlast hc

/-- While a call is in flight that is not displaced, no other one for its document comes in. -/
lemma Occupies.not_insertsAt (h : x.Occupies c i k) {r r' : Request} {o o' : Outcome}
    (hr : x.Returns c r o) (ho : o ≠ .cancelled) (hr' : x.Returns d r' o')
    (hkey : r.fileName.key = r'.fileName.key) (hne : c ≠ d) (hi' : x.InsertsAt d i')
    (hii' : i < i') : ¬ i' < k := by
  intro hik
  obtain ⟨hi'l, ha, call', hd, hs'⟩ := hi'
  obtain ⟨call, hc, -⟩ := h.inFlight hii' hik.le
  have hsame : call'.key = call.key := by
    rw [FormatCall.key, FormatCall.key, hr.request_eq hi'l.le hc, hr'.request_eq hi'l.le hd, hkey]
  have hdisplaced : x.Displaced c i k :=
    ⟨i', hii', hik, call, hc, .inl ⟨d, call', ha, hne.symm, hd, hs', hsame⟩⟩
  rcases h.returns hr with ⟨-, ho'⟩ | ⟨hnot, -⟩
  · exact ho ho'
  · exact hnot hdisplaced

end Run

/-- **A stale outcome is dropped, and no other one.** In every order of the steps of any number of
calls: a call that has returned was in the table once, from one step to a later one.  It returns
`cancelled` if and only if its place was lost in between, and otherwise exactly what the task for
its request came to.  Two calls for one document that both return something else than `cancelled`
were not in the table at a time. -/
theorem cancelled_iff_displaced (x : Run settings style) :
    (∀ c r o, x.Returns c r o → ∃ i k, x.Occupies c i k) ∧
    (∀ c i k i' k', x.Occupies c i k → x.Occupies c i' k' → i = i' ∧ k = k') ∧
    (∀ c r o i k, x.Returns c r o → x.Occupies c i k →
      (o = .cancelled ↔ x.Displaced c i k) ∧
      (¬ x.Displaced c i k → ∃ call t, (x.state k).formats[c]? = some call ∧
        (x.state k).tasks[call.task]? = some t ∧ t.request = r ∧ t.outcome? = some o)) ∧
    (∀ c d r r' o o' i k i' k', c ≠ d → r.fileName.key = r'.fileName.key →
      x.Returns c r o → o ≠ .cancelled → x.Occupies c i k →
      x.Returns d r' o' → o' ≠ .cancelled → x.Occupies d i' k' → k < i' ∨ k' < i) := by
  refine ⟨fun c r o h => Run.exists_occupies h, fun c i k i' k' h h' => h.unique h', ?_, ?_⟩
  · intro c r o i k hr h
    rcases h.returns hr with ⟨hd, ho⟩ | ⟨hd, ho, hrest⟩
    · exact ⟨iff_of_true ho hd, fun hnot => absurd hd hnot⟩
    · exact ⟨iff_of_false ho hd, fun _ => hrest⟩
  · intro c d r r' o o' i k i' k' hne hkey hr ho h hr' ho' h'
    have hstep : ∀ {j : ℕ}, (x.label j).action = .stepFormat c →
        (x.label j).action ≠ .stepFormat d := fun hc hd =>
      hne (Action.stepFormat.inj (hc.symm.trans hd))
    have hii' : i ≠ i' := fun heq => hstep h.2.1.2.1 (heq ▸ h'.2.1.2.1)
    have hki' : k ≠ i' := fun heq => hstep h.2.2.2.1 (heq ▸ h'.2.1.2.1)
    have hik' : i ≠ k' := fun heq => hstep h.2.1.2.1 (heq ▸ h'.2.2.2.1)
    have := h.not_insertsAt hr ho hr' hkey hne h'.2.1
    have := h'.not_insertsAt hr' ho' hr hkey.symm hne.symm h.2.1
    omega

/-! ## A run -/

/-- A document and what it is to be formatted from. -/
def document (text : String) : Request := { fileName := Path.ofString "a.c", text }

/-- Actions on a service in a small system, one part after another. -/
def onSmall (parts : List (List Action)) : List Turn :=
  parts.flatten.map fun action => ⟨Task.launchesAll, Task.optionFileOnly, action⟩

/-- The process of a task ends well. -/
def endsWell (i : ℕ) (stdout : String) : List Action :=
  [.session i .processEnds, .session i .noticeEnd,
    .session i (.collect (.exited { exitCode := 0, stdout, stderr := "" })),
    .session i .conclude, .session i .deliver]

/-- A run in which a second call comes when the first one has its outcome and is still in the
table. -/
def tooLate : Run Task.namedOptions {} :=
  Execution.ofLabels next _
    (onSmall
      [[.format (document "1")], List.replicate 8 (.stepFormat 0), endsWell 0 "1!",
        List.replicate 4 (.stepFormat 0), [.format (document "2")],
        List.replicate 2 (.stepFormat 1), [.stepFormat 0], List.replicate 8 (.stepFormat 1),
        endsWell 1 "2!", List.replicate 5 (.stepFormat 1)])
    (by decide +kernel)

/-- A call whose place is taken when its task is done is cancelled all the same, and the other is
not. -/
theorem cancelled_iff_displaced_tooLate :
    (tooLate.state 18).formats[0]?.map (·.stage) = some (.leaving (.completed "1!")) ∧
      tooLate.Displaced 0 2 21 ∧ ¬ tooLate.Displaced 1 20 39 := by
  obtain ⟨-, -, h, -⟩ := cancelled_iff_displaced tooLate
  have hfirst : tooLate.Returns 0 (document "1") .cancelled :=
    ⟨40, _, by decide, rfl, rfl, rfl⟩
  have hsecond : tooLate.Returns 1 (document "2") (.completed "2!") :=
    ⟨40, _, by decide, rfl, rfl, rfl⟩
  have hoccupies : tooLate.Occupies 0 2 21 :=
    ⟨by decide, ⟨by decide, rfl, _, rfl, rfl⟩, ⟨by decide, rfl, _, _, rfl, rfl⟩⟩
  have hoccupies' : tooLate.Occupies 1 20 39 :=
    ⟨by decide, ⟨by decide, rfl, _, rfl, rfl⟩, ⟨by decide, rfl, _, _, rfl, rfl⟩⟩
  exact ⟨rfl, (h 0 _ _ _ _ hfirst hoccupies).1.mp rfl,
    fun hd => by cases (h 1 _ _ _ _ hsecond hoccupies').1.mpr hd⟩

end Service

end SourceFormat.Formatting
