import Mathlib
import SourceFormat.Proofs.Formatting.ServiceTurns

/-!
# The calls, the tasks and the table of a service fit together

* Every call that has arrived somewhere has a task of its own, and every task has its call
  (`known`, `apart`, `owned`).
* An entry of the table belongs to a call in flight whose task nobody has disturbed (`listed`), and
  a call in flight that is not in the table has a task that somebody has disturbed (`displaced`).
* Whoever cancels a task has marked it before (`recalled`), so that a task without a mark is never
  cancelled.

`Coherent.next`: no step of anybody breaks any of this.
-/

namespace SourceFormat.Formatting

namespace Service

/-- The call has put itself into the table and is not done. -/
def FormatStage.InFlight : FormatStage → Prop
  | marking _ | recalling _ | running | leaving _ => True
  | _ => False

/-- How far the task of a call at this stage has come. -/
def FormatStage.Fits : FormatStage → Task.Stage → Prop
  | numbered, t | marking _, t | recalling _, t => t = .unrun
  | leaving o, t => t = .returned o
  | returned _, t => ∃ o, t = .returned o
  | _, _ => True

/-- Something has taken the place of this task: it is marked, or somebody is about to mark it. -/
def Disturbed (s : Service) (i : ℕ) : Prop :=
  s.Marks i ∨ ∃ t, s.tasks[i]? = some t ∧ t.superseded = true

/-- The calls, the tasks and the table of a service agree. -/
structure Coherent (s : Service) : Prop where
  counted : s.nextId = s.tasks.length
  known : ∀ {c : ℕ} {call : FormatCall}, s.formats[c]? = some call → call.stage ≠ .arrived →
    call.id = call.task ∧
      ∃ t, s.tasks[call.task]? = some t ∧ t.request = call.request ∧ call.stage.Fits t.stage
  apart : ∀ {c d : ℕ} {call call' : FormatCall}, s.formats[c]? = some call →
    call.stage ≠ .arrived → s.formats[d]? = some call' → call'.stage ≠ .arrived →
    call.task = call'.task → c = d
  owned : ∀ {i : ℕ} {t : Task}, s.tasks[i]? = some t →
    ∃ (c : ℕ) (call : FormatCall), s.formats[c]? = some call ∧ call.stage ≠ .arrived ∧ call.task = i
  chased : ∀ {i : ℕ}, s.Marks i → ∃ t, s.tasks[i]? = some t
  recalled : ∀ {i : ℕ}, s.Recalls i → ∃ t, s.tasks[i]? = some t ∧ t.superseded = true
  listed : ∀ {key : Path.Key} {id i : ℕ}, s.entry? key = some (id, i) → ¬ s.Disturbed i ∧
    ∃ (c : ℕ) (call : FormatCall), s.formats[c]? = some call ∧ call.stage.InFlight ∧
      call.key = key ∧ call.id = id ∧ call.task = i
  waiting : ∀ {c : ℕ} {call : FormatCall}, s.formats[c]? = some call → call.stage = .numbered →
    ¬ s.Disturbed call.task
  displaced : ∀ {c : ℕ} {call : FormatCall}, s.formats[c]? = some call → call.stage.InFlight →
    s.entry? call.key ≠ some (call.id, call.task) → s.Disturbed call.task
  task : ∀ {i : ℕ} {t : Task}, s.tasks[i]? = some t →
    t.Coherent ∧ t.Heeded ∧ t.Guarded (s.Recalls i)

variable {s s' : Service} {env : Task.Surroundings} {files : FileTree} {a : Action}

/-- A new service is in order. -/
lemma coherent_new (settings : Settings) (style : Style) : Coherent { settings, style } where
  counted := rfl
  known hc := by simp at hc
  apart hc := by simp at hc
  owned ht := by simp at ht
  chased h := by simp [Marks] at h
  recalled h := by simp [Recalls] at h
  listed he := by simp [Service.entry?] at he
  waiting hc := by simp at hc
  displaced hc := by simp at hc
  task ht := by simp at ht

/-- A call that is in flight has got a number. -/
lemma FormatStage.InFlight.ne_arrived {stage : FormatStage} (h : stage.InFlight) :
    stage ≠ .arrived := by
  rintro rfl
  exact h

/-! ## What stays -/

/-- A task that is there stays there, and only the step of its own call gets its run on. -/
lemma task_persists (hm : Moves s env files a s') {i : ℕ} {t : Task} (ht : s.tasks[i]? = some t) :
    ∃ t', s'.tasks[i]? = some t' ∧ t.Moves (s'.Recalls i) (s.Recalls i) t' ∧
      (t'.stage = t.stage ∨ ∃ (c : ℕ) (call : FormatCall), a = .stepFormat c ∧
        s.formats[c]? = some call ∧ call.stage = .running ∧ call.task = i) := by
  cases taskMoves hm i with
  | stays h => exact ⟨t, h.trans ht, .stays, .inl rfl⟩
  | arrives _ _ hi => simp [hi] at ht
  | runs ha hc hs hi h h' hmoves =>
    obtain rfl := Option.some.inj (h.symm.trans ht)
    exact ⟨_, h', hmoves, .inr ⟨_, _, ha, hc, hs, hi⟩⟩
  | moves h h' hmoves hstage =>
    obtain rfl := Option.some.inj (h.symm.trans ht)
    exact ⟨_, h', hmoves, .inl hstage⟩

/-- A call that has a number keeps it, with its task. -/
lemma FormatCall.Advances.same {call call' : FormatCall} (h : call.Advances s s' call')
    (hs : call.stage ≠ .arrived) : call'.stage ≠ .arrived ∧ call'.id = call.id ∧
      call'.task = call.task ∧ call'.request = call.request := by
  cases h with
  | number hs' => exact absurd hs' hs
  | insert => unfold FormatStage.ofDisplaced; split <;> simp
  | _ => simp

/-- A call with a number goes on under it, with its task and its request. -/
lemma format_persists (hm : Moves s env files a s') {c : ℕ} {call : FormatCall}
    (hc : s.formats[c]? = some call) (hs : call.stage ≠ .arrived) :
    ∃ call' : FormatCall, s'.formats[c]? = some call' ∧ call'.stage ≠ .arrived ∧
      call'.id = call.id ∧ call'.task = call.task ∧ call'.request = call.request := by
  rcases format_after hm hc with hsame | ⟨call', hc', hadv⟩
  · exact ⟨call, hsame, hs, rfl, rfl, rfl⟩
  · exact ⟨call', hc', hadv.same hs⟩

/-- A call that has a number had it before, or has just drawn it. -/
lemma format_origin (hm : Moves s env files a s') {c : ℕ} {call' : FormatCall}
    (hc : s'.formats[c]? = some call') (hs : call'.stage ≠ .arrived) :
    (∃ call : FormatCall, s.formats[c]? = some call ∧ call.stage ≠ .arrived ∧ call'.id = call.id ∧
      call'.task = call.task ∧ call'.request = call.request) ∨
    (a = .stepFormat c ∧ call'.stage = .numbered ∧ call'.id = s.nextId ∧
      call'.task = s.tasks.length ∧
      s'.tasks[s.tasks.length]? = some (s.newTask call')) := by
  cases formatMoves hm c with
  | stays h => exact .inl ⟨call', h.symm.trans hc, hs, rfl, rfl, rfl⟩
  | arrives r _ h' =>
    obtain rfl := Option.some.inj (h'.symm.trans hc)
    simp at hs
  | @advances call _ ha h h' hadv =>
    obtain rfl := Option.some.inj (h'.symm.trans hc)
    by_cases harr : call.stage = .arrived
    · cases hadv with
      | number _ ht => exact .inr ⟨ha, rfl, rfl, rfl, ht⟩
      | insert hs' | mark hs' | callOff hs' | refuse hs' | finish hs' | leave hs'
      | leaveStale hs' =>
        rw [harr] at hs'
        cases hs'
    · obtain ⟨-, hid, htask, hreq⟩ := hadv.same harr
      exact .inl ⟨call, h, harr, hid, htask, hreq⟩

/-! ## Who disturbs a task -/

/-- The step puts something in the place of this task, or takes it out of the table. -/
def TakesPlace (s s' : Service) (i : ℕ) : Prop :=
  (∃ (c id : ℕ) (call : FormatCall), s.formats[c]? = some call ∧ call.stage = .numbered ∧
    s.entry? call.key = some (id, i) ∧ s'.entry? call.key = some (call.id, call.task)) ∨
  (∃ (key : Path.Key) (id : ℕ), s.entry? key = some (id, i) ∧ s'.entry? key = none)

/-- Only a call that has displaced another one goes on to mark it. -/
lemma ofDisplaced_eq_marking {e : Option (ℕ × ℕ)} {i : ℕ}
    (h : FormatStage.ofDisplaced e = .marking i) : ∃ id, e = some (id, i) := by
  unfold FormatStage.ofDisplaced at h
  split at h <;> cases h
  exact ⟨_, rfl⟩

/-- Whatever a call has displaced, it is past its number. -/
lemma ofDisplaced_ne_numbered {e : Option (ℕ × ℕ)} : FormatStage.ofDisplaced e ≠ .numbered := by
  unfold FormatStage.ofDisplaced
  split <;> simp

/-- Nobody is cancelled who was not marked before. -/
lemma ofDisplaced_ne_recalling {e : Option (ℕ × ℕ)} {i : ℕ} :
    FormatStage.ofDisplaced e ≠ .recalling i := by
  unfold FormatStage.ofDisplaced
  split <;> simp

/-- A task is chased if it was before, or if it loses its place by this step. -/
lemma marks_origin (hm : Moves s env files a s') {i : ℕ} (h : s'.Marks i) :
    s.Marks i ∨ TakesPlace s s' i := by
  rcases h with ⟨c, call', hc, hs⟩ | ⟨c, call', hc, hs⟩
  · rcases format_before hm hc with hc | harr | ⟨call, hcall, hadv⟩
    · exact .inl (.inl ⟨c, call', hc, hs⟩)
    · cases harr.symm.trans hs
    · cases hadv with
      | insert hs' he' =>
        obtain ⟨id, he⟩ := ofDisplaced_eq_marking hs
        exact .inr (.inl ⟨c, id, call, hcall, hs', he, he'⟩)
      | _ => cases hs
  · rcases cancel_before hm hc with hc | harr | ⟨call, hcall, hadv⟩
    · exact .inl (.inr ⟨c, call', hc, hs⟩)
    · cases harr.symm.trans hs
    · cases hadv with
      | withdraw hs' he he' =>
        cases hs
        exact .inr (.inr ⟨_, _, he, he'⟩)
      | _ => cases hs

/-- A task is recalled if it was before, or if it was chased and is marked by now. -/
lemma recalls_origin (hm : Moves s env files a s') {i : ℕ} (h : s'.Recalls i) :
    s.Recalls i ∨ s.Marks i ∧ ∀ t, s'.tasks[i]? = some t → t.superseded = true := by
  rcases h with ⟨c, call', hc, hs⟩ | ⟨c, call', hc, hs⟩
  · rcases format_before hm hc with hc | harr | ⟨call, hcall, hadv⟩
    · exact .inl (.inl ⟨c, call', hc, hs⟩)
    · cases harr.symm.trans hs
    · cases hadv with
      | mark hs' hmark =>
        cases hs
        exact .inr ⟨.inl ⟨c, call, hcall, hs'⟩, hmark⟩
      | insert => exact absurd hs ofDisplaced_ne_recalling
      | _ => cases hs
  · rcases cancel_before hm hc with hc | harr | ⟨call, hcall, hadv⟩
    · exact .inl (.inr ⟨c, call', hc, hs⟩)
    · cases harr.symm.trans hs
    · cases hadv with
      | mark hs' hmark =>
        cases hs
        exact .inr ⟨.inr ⟨c, call, hcall, hs'⟩, hmark⟩
      | _ => cases hs

/-- Who is about to mark a task goes on to mark it. -/
lemma marks_persists (hm : Moves s env files a s') {i : ℕ} (h : s.Marks i) :
    s'.Marks i ∨ ∀ t, s'.tasks[i]? = some t → t.superseded = true := by
  rcases h with ⟨c, call, hc, hs⟩ | ⟨c, call, hc, hs⟩
  · rcases format_after hm hc with hc' | ⟨call', -, hadv⟩
    · exact .inl (.inl ⟨c, call, hc', hs⟩)
    · cases hadv with
      | mark hs' hmark =>
        cases hs.symm.trans hs'
        exact .inr hmark
      | number hs' | insert hs' | callOff hs' | refuse hs' | finish hs' | leave hs'
      | leaveStale hs' => cases hs.symm.trans hs'
  · rcases cancel_after hm hc with hc' | ⟨call', -, hadv⟩
    · exact .inl (.inr ⟨c, call, hc', hs⟩)
    · cases hadv with
      | mark hs' hmark =>
        cases hs.symm.trans hs'
        exact .inr hmark
      | withdraw hs' | withdrawNothing hs' | callOff hs' => cases hs.symm.trans hs'

/-- Who is about to cancel a task goes on to cancel it. -/
lemma recalls_persists (hm : Moves s env files a s') {i : ℕ} (h : s.Recalls i) :
    s'.Recalls i ∨ ∀ t, s'.tasks[i]? = some t → t.session.state ≠ .started := by
  rcases h with ⟨c, call, hc, hs⟩ | ⟨c, call, hc, hs⟩
  · rcases format_after hm hc with hc' | ⟨call', -, hadv⟩
    · exact .inl (.inl ⟨c, call, hc', hs⟩)
    · cases hadv with
      | callOff hs' hoff =>
        cases hs.symm.trans hs'
        exact .inr hoff
      | number hs' | insert hs' | mark hs' | refuse hs' | finish hs' | leave hs'
      | leaveStale hs' => cases hs.symm.trans hs'
  · rcases cancel_after hm hc with hc' | ⟨call', -, hadv⟩
    · exact .inl (.inr ⟨c, call, hc', hs⟩)
    · cases hadv with
      | callOff hs' hoff =>
        cases hs.symm.trans hs'
        exact .inr hoff
      | withdraw hs' | withdrawNothing hs' | mark hs' => cases hs.symm.trans hs'

/-- A task that is being cancelled was disturbed before. -/
lemma Coherent.disturbed_of_recalls (h : s.Coherent) {i : ℕ} (hr : s.Recalls i) : s.Disturbed i :=
  .inr (h.recalled hr)

/-- A task that has been disturbed stays so. -/
lemma disturbed_persists (hm : Moves s env files a s') (h : s.Coherent) {i : ℕ}
    (hd : s.Disturbed i) : s'.Disturbed i := by
  rcases hd with hmarks | ⟨t, ht, hsuper⟩
  · obtain ⟨t, ht⟩ := h.chased hmarks
    obtain ⟨t', ht', -⟩ := task_persists hm ht
    exact (marks_persists hm hmarks).imp id fun hall => ⟨t', ht', hall t' ht'⟩
  · obtain ⟨t', ht', hmoves, -⟩ := task_persists hm ht
    exact .inr ⟨t', ht', Task.superseded_moves hmoves hsuper⟩

/-- Nobody disturbs a task but by putting something in its place. -/
lemma disturbed_origin (hm : Moves s env files a s') (h : s.Coherent) {i : ℕ}
    (hd : s'.Disturbed i) : s.Disturbed i ∨ TakesPlace s s' i := by
  rcases hd with hmarks | ⟨t', ht', hsuper⟩
  · exact (marks_origin hm hmarks).imp_left .inl
  · -- a mark that is new has been set by somebody who was about to
    have hnew : s'.Recalls i → s.Disturbed i := fun hr =>
      (recalls_origin hm hr).elim h.disturbed_of_recalls fun hmarks => .inl hmarks.1
    cases taskMoves hm i with
    | stays h => exact .inl (.inr ⟨t', h.symm.trans ht', hsuper⟩)
    | arrives _ _ _ _ h' =>
      obtain rfl := Option.some.inj (h'.symm.trans ht')
      cases hsuper
    | runs _ _ _ _ h h' hmoves | moves h h' hmoves =>
      obtain rfl := Option.some.inj (h'.symm.trans ht')
      exact .inl ((Task.superseded_of_moves hmoves hsuper).elim (fun ho => .inr ⟨_, h, ho⟩) hnew)

/-- A task keeps its place as long as its entry stays. -/
lemma Coherent.not_takesPlace_of_entry (h : s.Coherent) {key : Path.Key} {id i : ℕ}
    (he : s.entry? key = some (id, i)) (he' : s'.entry? key = some (id, i)) :
    ¬ TakesPlace s s' i := by
  obtain ⟨-, c, call, hc, hs, rfl, rfl, rfl⟩ := h.listed he
  -- only one document has this task in its entry
  have hkey : ∀ {key' : Path.Key} {id' : ℕ}, s.entry? key' = some (id', call.task) →
      call.key = key' := fun he₂ => by
    obtain ⟨-, d, call', hd, hs', rfl, -, htask⟩ := h.listed he₂
    obtain rfl := h.apart hd hs'.ne_arrived hc hs.ne_arrived htask
    rw [Option.some.inj (hd.symm.trans hc)]
  rintro (⟨d, id', call', hd, hs', he₂, he₂'⟩ | ⟨key', id', he₂, he₂'⟩)
  · rw [← hkey he₂, he'] at he₂'
    have htask : call.task = call'.task := by simpa using (Prod.ext_iff.mp (Option.some.inj he₂')).2
    obtain rfl := h.apart hc hs.ne_arrived hd (by simp [hs']) htask
    obtain rfl := Option.some.inj (hc.symm.trans hd)
    rw [hs'] at hs
    exact hs
  · rw [← hkey he₂, he'] at he₂'
    cases he₂'

/-- A task that is not in the table yet has no place to lose. -/
lemma Coherent.not_takesPlace_of_numbered (h : s.Coherent) {c : ℕ} {call : FormatCall}
    (hc : s.formats[c]? = some call) (hs : call.stage = .numbered) :
    ¬ TakesPlace s s' call.task := by
  have hno : ∀ {key : Path.Key} {id : ℕ}, s.entry? key ≠ some (id, call.task) := fun he => by
    obtain ⟨-, d, call', hd, hs', -, -, htask⟩ := h.listed he
    obtain rfl := h.apart hd hs'.ne_arrived hc (by simp [hs]) htask
    obtain rfl := Option.some.inj (hd.symm.trans hc)
    rw [hs] at hs'
    exact hs'
  rintro (⟨_, _, _, -, -, he, -⟩ | ⟨_, _, he, -⟩) <;> exact hno he

/-- With its entry in the table a call is in flight. -/
lemma ofDisplaced_inFlight (e : Option (ℕ × ℕ)) : (FormatStage.ofDisplaced e).InFlight := by
  unfold FormatStage.ofDisplaced
  split <;> trivial

/-- A call in flight is in flight until it has looked for its entry. -/
lemma FormatCall.Advances.inFlight {call call' : FormatCall} (h : call.Advances s s' call')
    (hf : call.stage.InFlight) : call'.stage.InFlight ∨ s'.entry? call.key = none ∨
      ∀ task, s.entry? call.key ≠ some (call.id, task) := by
  cases h with
  | number hs | insert hs =>
    rw [hs] at hf
    exact hf.elim
  | mark | callOff | refuse | finish => exact .inl trivial
  | leave _ _ he' => exact .inr (.inl he')
  | leaveStale _ he => exact .inr (.inr he)

/-! ## No step breaks the agreement -/

section next

variable (h : s.Coherent) (hm : Moves s env files a s')
include h hm

/-- The task of a call is where the call has it, whatever others do to it. -/
lemma Coherent.fits_persists {c : ℕ} {call : FormatCall} (hc : s.formats[c]? = some call)
    (hs : call.stage ≠ .arrived) (hrun : call.stage ≠ .running) : call.id = call.task ∧
      ∃ t, s'.tasks[call.task]? = some t ∧ t.request = call.request ∧ call.stage.Fits t.stage := by
  obtain ⟨hid, t, ht, hreq, hfits⟩ := h.known hc hs
  obtain ⟨t', ht', hmoves, hstage⟩ := task_persists hm ht
  refine ⟨hid, t', ht', (Task.request_moves hmoves).trans hreq, ?_⟩
  rcases hstage with hstage | ⟨d, call', -, hd, hrun', htask⟩
  · rwa [hstage]
  · -- only the call itself gets its task on, while it is running
    obtain rfl := h.apart hd (by simp [hrun']) hc hs htask
    obtain rfl := Option.some.inj (hd.symm.trans hc)
    exact absurd hrun' hrun

/-- Behind every step a call with a number has its task, at the stage that fits. -/
lemma Coherent.known_next {c : ℕ} {call' : FormatCall} (hc : s'.formats[c]? = some call')
    (hs : call'.stage ≠ .arrived) : call'.id = call'.task ∧
      ∃ t, s'.tasks[call'.task]? = some t ∧ t.request = call'.request ∧
        call'.stage.Fits t.stage := by
  rcases format_before hm hc with hc | harr | ⟨call, hcall, hadv⟩
  · by_cases hrun : call'.stage = .running
    · obtain ⟨hid, t, ht, hreq, -⟩ := h.known hc hs
      obtain ⟨t', ht', hmoves, -⟩ := task_persists hm ht
      exact ⟨hid, t', ht', (Task.request_moves hmoves).trans hreq, by simp [hrun, FormatStage.Fits]⟩
    · exact h.fits_persists hm hc hs hrun
  · exact absurd harr hs
  · cases hadv with
    | number hs' ht' => exact ⟨h.counted, _, ht', rfl, rfl⟩
    | insert hs' =>
      obtain ⟨hid, t', ht', hreq', hfits⟩ :=
        h.fits_persists hm hcall (by simp [hs']) (by simp [hs'])
      rw [hs'] at hfits
      refine ⟨hid, t', ht', hreq', ?_⟩
      dsimp only
      unfold FormatStage.ofDisplaced
      split
      · exact hfits
      · trivial
    | mark hs' =>
      obtain ⟨hid, t', ht', hreq', hfits⟩ :=
        h.fits_persists hm hcall (by simp [hs']) (by simp [hs'])
      rw [hs'] at hfits
      exact ⟨hid, t', ht', hreq', hfits⟩
    | callOff hs' =>
      obtain ⟨hid, t', ht', hreq', -⟩ :=
        h.fits_persists hm hcall (by simp [hs']) (by simp [hs'])
      exact ⟨hid, t', ht', hreq', trivial⟩
    | refuse hs' ht hu hi => exact absurd ((h.task ht).1.idle.mpr hu) hi
    | finish hs' ht' ho =>
      obtain ⟨hid, t, ht, hreq, -⟩ := h.known hcall (by simp [hs'])
      obtain ⟨t'', ht'', hmoves, -⟩ := task_persists hm ht
      obtain rfl := Option.some.inj (ht''.symm.trans ht')
      exact ⟨hid, t'', ht', (Task.request_moves hmoves).trans hreq, ho⟩
    | leave hs' | leaveStale hs' =>
      obtain ⟨hid, t', ht', hreq', hfits⟩ :=
        h.fits_persists hm hcall (by simp [hs']) (by simp [hs'])
      rw [hs'] at hfits
      exact ⟨hid, t', ht', hreq', _, hfits⟩

/-- Behind every step two calls with numbers have different tasks. -/
lemma Coherent.apart_next {c d : ℕ} {call call' : FormatCall} (hc : s'.formats[c]? = some call)
    (hs : call.stage ≠ .arrived) (hd : s'.formats[d]? = some call') (hs' : call'.stage ≠ .arrived)
    (heq : call.task = call'.task) : c = d := by
  have hlt : ∀ {d : ℕ} {call : FormatCall}, s.formats[d]? = some call → call.stage ≠ .arrived →
      call.task < s.tasks.length := fun hd hs => by
    obtain ⟨-, t, ht, -⟩ := h.known hd hs
    exact (List.getElem?_eq_some_iff.mp ht).1
  rcases format_origin hm hc hs with ⟨call₀, hc₀, hs₀, -, htask, -⟩ | ⟨ha, -, -, htask, -⟩ <;>
    rcases format_origin hm hd hs' with ⟨call₁, hd₁, hs₁, -, htask', -⟩ | ⟨ha', -, -, htask', -⟩
  · exact h.apart hc₀ hs₀ hd₁ hs₁ (by rw [← htask, heq, htask'])
  · have := hlt hc₀ hs₀
    omega
  · have := hlt hd₁ hs₁
    omega
  · simpa using ha.symm.trans ha'

/-- Behind every step a task has its call. -/
lemma Coherent.owned_next {i : ℕ} {t' : Task} (ht' : s'.tasks[i]? = some t') :
    ∃ (c : ℕ) (call : FormatCall), s'.formats[c]? = some call ∧ call.stage ≠ .arrived ∧
      call.task = i := by
  have hold : ∀ {t}, s.tasks[i]? = some t → ∃ (c : ℕ) (call : FormatCall),
      s'.formats[c]? = some call ∧ call.stage ≠ .arrived ∧ call.task = i := fun ht => by
    obtain ⟨c, call, hc, hs, htask⟩ := h.owned ht
    obtain ⟨call', hc', hs', -, htask', -⟩ := format_persists hm hc hs
    exact ⟨c, call', hc', hs', htask'.trans htask⟩
  cases taskMoves hm i with
  | stays hsame => exact hold (hsame.symm.trans ht')
  | arrives _ _ hi hc' => exact ⟨_, _, hc', by simp, hi.symm⟩
  | runs _ _ _ _ ht => exact hold ht
  | moves ht => exact hold ht

/-- Behind every step whoever is to be marked is a task. -/
lemma Coherent.chased_next {i : ℕ} (hmarks : s'.Marks i) : ∃ t, s'.tasks[i]? = some t := by
  have hold : (∃ t, s.tasks[i]? = some t) → ∃ t, s'.tasks[i]? = some t := fun ⟨t, ht⟩ => by
    obtain ⟨t', ht', -⟩ := task_persists hm ht
    exact ⟨t', ht'⟩
  have hentry : ∀ {key : Path.Key} {id : ℕ}, s.entry? key = some (id, i) →
      ∃ t, s.tasks[i]? = some t := fun he => by
    obtain ⟨-, c, call, hc, hs, -, -, rfl⟩ := h.listed he
    obtain ⟨-, t, ht, -⟩ := h.known hc hs.ne_arrived
    exact ⟨t, ht⟩
  rcases marks_origin hm hmarks with hmarks | ⟨_, _, _, -, -, he, -⟩ | ⟨_, _, he, -⟩
  · exact hold (h.chased hmarks)
  · exact hold (hentry he)
  · exact hold (hentry he)

/-- Behind every step whoever is to be cancelled is marked. -/
lemma Coherent.recalled_next {i : ℕ} (hr : s'.Recalls i) :
    ∃ t, s'.tasks[i]? = some t ∧ t.superseded = true := by
  rcases recalls_origin hm hr with hr | ⟨hmarks, hall⟩
  · obtain ⟨t, ht, hsuper⟩ := h.recalled hr
    obtain ⟨t', ht', hmoves, -⟩ := task_persists hm ht
    exact ⟨t', ht', Task.superseded_moves hmoves hsuper⟩
  · obtain ⟨t, ht⟩ := h.chased hmarks
    obtain ⟨t', ht', -⟩ := task_persists hm ht
    exact ⟨t', ht', hall t' ht'⟩

/-- Behind every step an entry belongs to a call in flight whose task nobody has disturbed. -/
lemma Coherent.listed_next {key : Path.Key} {id i : ℕ} (he' : s'.entry? key = some (id, i)) :
    ¬ s'.Disturbed i ∧ ∃ (c : ℕ) (call : FormatCall), s'.formats[c]? = some call ∧
      call.stage.InFlight ∧ call.key = key ∧ call.id = id ∧ call.task = i := by
  cases entryMoves hm key with
  | stays hsame =>
    have he := hsame.symm.trans he'
    obtain ⟨hnot, c, call, hc, hs, hkey, hid, htask⟩ := h.listed he
    refine ⟨fun hd => ?_, ?_⟩
    · exact (disturbed_origin hm h hd).elim hnot (h.not_takesPlace_of_entry he he')
    · rcases format_after hm hc with hc' | ⟨call', hc', hadv⟩
      · exact ⟨c, call, hc', hs, hkey, hid, htask⟩
      · obtain ⟨-, hid', htask', hreq⟩ := hadv.same hs.ne_arrived
        have hkey' : call'.key = call.key := by rw [FormatCall.key, hreq, FormatCall.key]
        rcases hadv.inFlight hs with hs' | hnone | hno
        · exact ⟨c, call', hc', hs', hkey'.trans hkey, hid'.trans hid, htask'.trans htask⟩
        · rw [hkey, he'] at hnone
          cases hnone
        · exact absurd (by rw [hkey, hid, he]) (hno i)
  | @inserts c call _ hc hs hkey hc' he =>
    rw [he'] at he
    cases he
    refine ⟨fun hd => ?_, c, _, hc', ofDisplaced_inFlight _, hkey, rfl, rfl⟩
    exact (disturbed_origin hm h hd).elim (h.waiting hc hs) (h.not_takesPlace_of_numbered hc hs)
  | leaves _ _ _ _ _ _ hnone | withdraws _ _ _ _ _ _ hnone =>
    rw [he'] at hnone
    cases hnone

/-- Nobody knows of a task that has not been made. -/
lemma Coherent.not_disturbed_new : ¬ s'.Disturbed s.tasks.length := by
  intro hd
  have hnone : s.tasks[s.tasks.length]? = none := by simp
  have hno : ∀ {key : Path.Key} {id : ℕ}, s.entry? key ≠ some (id, s.tasks.length) := fun he => by
    obtain ⟨-, d, call', hd, hs', -, -, htask⟩ := h.listed he
    obtain ⟨-, t, ht, -⟩ := h.known hd hs'.ne_arrived
    rw [htask, hnone] at ht
    cases ht
  rcases disturbed_origin hm h hd with (hmarks | ⟨t, ht, -⟩) | ⟨_, _, _, -, -, he, -⟩ |
    ⟨_, _, he, -⟩
  · obtain ⟨t, ht⟩ := h.chased hmarks
    rw [hnone] at ht
    cases ht
  · rw [hnone] at ht
    cases ht
  · exact hno he
  · exact hno he

/-- Behind every step nobody has disturbed a task whose call is not in the table yet. -/
lemma Coherent.waiting_next {c : ℕ} {call' : FormatCall} (hc : s'.formats[c]? = some call')
    (hs : call'.stage = .numbered) : ¬ s'.Disturbed call'.task := by
  rcases format_before hm hc with hc | harr | ⟨call, hcall, hadv⟩
  · intro hd
    exact (disturbed_origin hm h hd).elim (h.waiting hc hs) (h.not_takesPlace_of_numbered hc hs)
  · cases harr.symm.trans hs
  · cases hadv with
    | number => exact h.not_disturbed_new hm
    | insert => exact absurd hs ofDisplaced_ne_numbered
    | _ => cases hs

/-- Behind every step a call in flight that is not in the table has a disturbed task. -/
lemma Coherent.displaced_next {c : ℕ} {call' : FormatCall} (hc : s'.formats[c]? = some call')
    (hs : call'.stage.InFlight) (he' : s'.entry? call'.key ≠ some (call'.id, call'.task)) :
    s'.Disturbed call'.task := by
  -- a call that was in flight has lost its place before, or loses it now
  have hold : ∀ call : FormatCall, s.formats[c]? = some call → call.stage.InFlight →
      s'.entry? call.key ≠ some (call.id, call.task) → s'.Disturbed call.task := by
    intro call hcall hs₀ he'
    by_cases he : s.entry? call.key = some (call.id, call.task)
    · cases entryMoves hm call.key with
      | stays hsame => exact absurd (hsame.trans he) he'
      | @inserts d _ _ _ _ _ hd' =>
        rw [he] at hd'
        exact .inl (.inl ⟨d, _, hd', rfl⟩)
      | @leaves d call₂ o task _ hd hleaving _ hd' hentry =>
        -- it is the call itself that leaves, and it is not in flight behind that
        have hid : call.id = call₂.id := (Prod.mk.inj (Option.some.inj (he.symm.trans hentry))).1
        have hne₂ : call₂.stage ≠ .arrived := by simp [hleaving]
        obtain rfl := h.apart hcall hs₀.ne_arrived hd hne₂ (by
          rw [← (h.known hcall hs₀.ne_arrived).1, hid, (h.known hd hne₂).1])
        obtain rfl := Option.some.inj (hd'.symm.trans hc)
        exact hs.elim
      | @withdraws d call₂ id task _ _ _ _ hd' hentry =>
        rw [he] at hentry
        cases hentry
        exact .inl (.inr ⟨d, _, hd', rfl⟩)
    · exact disturbed_persists hm h (h.displaced hcall hs₀ he)
  rcases format_before hm hc with hcall | harr | ⟨call, hcall, hadv⟩
  · exact hold call' hcall hs he'
  · rw [harr] at hs
    exact hs.elim
  · cases hadv with
    | number | leave | leaveStale => exact hs.elim
    | insert _ hentry => exact absurd hentry he'
    | mark hs₀ | callOff hs₀ | refuse hs₀ | finish hs₀ =>
      exact hold call hcall (by rw [hs₀]; trivial) he'

/-- Behind every step the tasks are in order themselves, and one without a mark is not cancelled. -/
lemma Coherent.task_next {i : ℕ} {t' : Task} (ht' : s'.tasks[i]? = some t') :
    t'.Coherent ∧ t'.Heeded ∧ t'.Guarded (s'.Recalls i) := by
  have hguard : s.Recalls i → s'.Recalls i ∨ t'.session.state ≠ .started := fun hr =>
    (recalls_persists hm hr).imp_right fun hall => hall t' ht'
  have hold : ∀ {t : Task}, s.tasks[i]? = some t → t.Moves (s'.Recalls i) (s.Recalls i) t' →
      t'.Coherent ∧ t'.Heeded ∧ t'.Guarded (s'.Recalls i) := by
    intro t ht hmoves
    obtain ⟨hcoherent, hheeded, hguarded⟩ := h.task ht
    refine ⟨hcoherent.moves hmoves, hheeded.moves hcoherent hmoves fun hr => ?_,
      hguarded.moves hcoherent hmoves hguard⟩
    obtain ⟨t₀, ht₀, hsuper⟩ := h.recalled hr
    rwa [Option.some.inj (ht.symm.trans ht₀)]
  cases taskMoves hm i with
  | stays hsame => exact hold (hsame.symm.trans ht') .stays
  | arrives _ _ _ _ hnew =>
    obtain rfl := Option.some.inj (hnew.symm.trans ht')
    exact ⟨Task.coherent_new _ _ _, Task.heeded_new _ _ _, Task.guarded_new _ _ _⟩
  | runs _ _ _ _ ht hnew hmoves | moves ht hnew hmoves =>
    obtain rfl := Option.some.inj (hnew.symm.trans ht')
    exact hold ht hmoves

/-- No step of anybody breaks the order of a service. -/
lemma Coherent.next : s'.Coherent where
  counted := nextId_moves hm h.counted
  known := h.known_next hm
  apart := h.apart_next hm
  owned := h.owned_next hm
  chased := h.chased_next hm
  recalled := h.recalled_next hm
  listed := h.listed_next hm
  waiting := h.waiting_next hm
  displaced := h.displaced_next hm
  task := h.task_next hm

end next

end Service

end SourceFormat.Formatting
