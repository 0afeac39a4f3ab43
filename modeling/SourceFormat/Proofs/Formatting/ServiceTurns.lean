import Mathlib
import SourceFormat.Formatting.Service
import SourceFormat.Proofs.Formatting.TaskTurns

/-!
# What can happen to a service

A service is acted on by calls to format, by cancellations and by the sessions of its tasks.

* `Moves`, `moves_of_step`: every step, with what it finds.
* `formatMoves`, `cancelMoves`, `taskMoves`, `entryMoves`: what a step makes of one formatting
  call, of one cancellation, of one task and of the table's entry for one document.  A step touches
  at most one of each, and the invariants of a service are read off these four.
-/

namespace SourceFormat.Formatting

namespace Service

/-- A step of a service, with what the run of a task needs of its surroundings. -/
structure Turn where
  env : Task.Surroundings
  files : FileTree
  action : Action

instance : Inhabited Turn := ⟨⟨⟨{ directory := ⟨[]⟩ }, fun _ => .ok ()⟩, {}, .stepFormat 0⟩⟩

/-- The service behind a step; none if it is not possible now. -/
def next (s : Service) (l : Turn) : Option Service := (s.step l.env l.files l.action).map (·.1)

/-- The document that a call is about. -/
def FormatCall.key (call : FormatCall) : Path.Key := call.request.fileName.key

/-- The task that a call makes. -/
def newTask (s : Service) (call : FormatCall) : Task :=
  { request := call.request, settings := s.settings, style := s.style }

/-- What a call does next that has found this in the table in its place. -/
def FormatStage.ofDisplaced : Option (ℕ × ℕ) → FormatStage
  | some (_, stale) => .marking stale
  | none => .running

variable {s s' : Service}

/-- A call with an outcome has returned. -/
lemma FormatCall.stage_of_outcome? {call : FormatCall} {o : Outcome} (h : call.outcome? = some o) :
    call.stage = .returned o := by
  unfold outcome? at h
  split at h
  · rename_i hs
    rw [hs, Option.some.inj h]
  · cases h

/-! ## The parts of a service -/

section parts

variable (s) (i c : ℕ) (f : Task → Task) (key key' : Path.Key) (id task : ℕ) (call : FormatCall)
  (stage : FormatStage) (cancellation : CancelCall) (phase : CancelStage)

@[simp] lemma insert_tasks : (s.insert key id task).tasks = s.tasks := rfl
@[simp] lemma insert_formats : (s.insert key id task).formats = s.formats := rfl
@[simp] lemma insert_cancels : (s.insert key id task).cancels = s.cancels := rfl
@[simp] lemma insert_nextId : (s.insert key id task).nextId = s.nextId := rfl

@[simp] lemma remove_tasks : (s.remove key).tasks = s.tasks := rfl
@[simp] lemma remove_formats : (s.remove key).formats = s.formats := rfl
@[simp] lemma remove_cancels : (s.remove key).cancels = s.cancels := rfl
@[simp] lemma remove_nextId : (s.remove key).nextId = s.nextId := rfl

@[simp] lemma moveFormat_tasks : (s.moveFormat c call stage).tasks = s.tasks := rfl
@[simp] lemma moveFormat_cancels : (s.moveFormat c call stage).cancels = s.cancels := rfl
@[simp] lemma moveFormat_nextId : (s.moveFormat c call stage).nextId = s.nextId := rfl
@[simp] lemma moveFormat_formats :
    (s.moveFormat c call stage).formats = s.formats.set c { call with stage } := rfl

@[simp] lemma moveCancel_tasks : (s.moveCancel c cancellation phase).tasks = s.tasks := rfl
@[simp] lemma moveCancel_formats : (s.moveCancel c cancellation phase).formats = s.formats := rfl
@[simp] lemma moveCancel_nextId : (s.moveCancel c cancellation phase).nextId = s.nextId := rfl
@[simp] lemma moveCancel_cancels :
    (s.moveCancel c cancellation phase).cancels =
      s.cancels.set c { cancellation with stage := phase } := rfl

/-- To do something to a task changes the tasks and nothing else. -/
lemma onTask_eq : s.onTask i f = { s with tasks := s.tasks.modify i f } := by
  unfold onTask
  split
  · rename_i t ht
    congr 1
    refine List.ext_getElem? fun j => ?_
    obtain ⟨hi, rfl⟩ := List.getElem?_eq_some_iff.mp ht
    rw [List.getElem?_set, List.getElem?_modify]
    split
    · subst j
      simp [hi]
    · simp
  · rename_i hn
    rw [List.modify_eq_self (by simpa using hn)]

@[simp] lemma onTask_formats : (s.onTask i f).formats = s.formats := by rw [onTask_eq]

@[simp] lemma onTask_cancels : (s.onTask i f).cancels = s.cancels := by rw [onTask_eq]

/-! ## The table -/

@[simp] lemma entry?_moveFormat :
    entry? (s.moveFormat c call stage) key = s.entry? key := rfl

@[simp] lemma entry?_moveCancel :
    entry? (s.moveCancel c cancellation phase) key = s.entry? key := rfl

@[simp] lemma entry?_onTask : entry? (s.onTask i f) key = s.entry? key := by
  rw [onTask_eq]
  rfl

/-- Behind a removal there is no entry for the document, and every other entry is as it was. -/
lemma entry?_remove :
    entry? (s.remove key) key' = if key' = key then none else s.entry? key' := by
  simp only [Service.entry?, remove, List.find?_filter]
  split
  · subst key'
    simp
  · rename_i hne
    congr 2
    funext e
    by_cases he : e.1 = key' <;> simp [he, hne]

/-- Behind an insertion the document has the new entry, and every other one has its own. -/
lemma entry?_insert :
    entry? (s.insert key id task) key' = if key' = key then some (id, task) else s.entry? key' := by
  have hremove := entry?_remove s key key'
  unfold entry? remove at hremove
  simp only [Service.entry?, insert, List.find?_cons]
  split_ifs at hremove ⊢ with hk
  · simp [hk]
  · simpa [Ne.symm hk] using hremove

end parts

/-! ## Steps -/

/-- A step of a service, with what it finds. -/
inductive Moves (s : Service) (env : Task.Surroundings) (files : FileTree) :
    Action → Service → Prop where
  | format (r : Request) : Moves s env files (.format r) (s.format r)
  | cancel (p : Path) : Moves s env files (.cancel p) (s.cancel p)
  | number {c : ℕ} {call : FormatCall} (hc : s.formats[c]? = some call)
      (hs : call.stage = .arrived) :
      Moves s env files (.stepFormat c)
        ({ s with nextId := s.nextId + 1, tasks := s.tasks ++ [s.newTask call] }.moveFormat c
          { call with id := s.nextId, task := s.tasks.length } .numbered)
  | insert {c : ℕ} {call : FormatCall} (hc : s.formats[c]? = some call)
      (hs : call.stage = .numbered) :
      Moves s env files (.stepFormat c)
        ((s.insert call.key call.id call.task).moveFormat c call
          (.ofDisplaced (s.entry? call.key)))
  | mark {c : ℕ} {call : FormatCall} {stale : ℕ} (hc : s.formats[c]? = some call)
      (hs : call.stage = .marking stale) :
      Moves s env files (.stepFormat c)
        ((s.onTask stale Task.markSuperseded).moveFormat c call (.recalling stale))
  | callOff {c : ℕ} {call : FormatCall} {stale : ℕ} (hc : s.formats[c]? = some call)
      (hs : call.stage = .recalling stale) :
      Moves s env files (.stepFormat c)
        ((s.onTask stale (·.cancel.2)).moveFormat c call .running)
  | begin {c : ℕ} {call : FormatCall} {t : Task} (hc : s.formats[c]? = some call)
      (hs : call.stage = .running) (ht : s.tasks[call.task]? = some t) (hu : t.stage = .unrun)
      (hi : t.state = .idle) :
      Moves s env files (.stepFormat c) { s with tasks := s.tasks.set call.task t.begin.2 }
  | refuse {c : ℕ} {call : FormatCall} {t : Task} (hc : s.formats[c]? = some call)
      (hs : call.stage = .running) (ht : s.tasks[call.task]? = some t) (hu : t.stage = .unrun)
      (hi : t.state ≠ .idle) :
      Moves s env files (.stepFormat c) (s.moveFormat c call (.leaving Task.rerunOutcome))
  | advance {c : ℕ} {call : FormatCall} {t t' : Task} {files' : FileTree}
      (hc : s.formats[c]? = some call) (hs : call.stage = .running)
      (ht : s.tasks[call.task]? = some t) (hadv : t.advance env files = some (t', files')) :
      Moves s env files (.stepFormat c) { s with tasks := s.tasks.set call.task t' }
  | finish {c : ℕ} {call : FormatCall} {t : Task} {o : Outcome} (hc : s.formats[c]? = some call)
      (hs : call.stage = .running) (ht : s.tasks[call.task]? = some t)
      (ho : t.stage = .returned o) :
      Moves s env files (.stepFormat c) (s.moveFormat c call (.leaving o))
  | leave {c : ℕ} {call : FormatCall} {o : Outcome} {task : ℕ} (hc : s.formats[c]? = some call)
      (hs : call.stage = .leaving o) (he : s.entry? call.key = some (call.id, task)) :
      Moves s env files (.stepFormat c)
        ((s.remove call.key).moveFormat c call (.returned o))
  | leaveStale {c : ℕ} {call : FormatCall} {o : Outcome} (hc : s.formats[c]? = some call)
      (hs : call.stage = .leaving o) (he : ∀ task, s.entry? call.key ≠ some (call.id, task)) :
      Moves s env files (.stepFormat c) (s.moveFormat c call (.returned .cancelled))
  | withdraw {c : ℕ} {call : CancelCall} {id task : ℕ} (hc : s.cancels[c]? = some call)
      (hs : call.stage = .arrived) (he : s.entry? call.key = some (id, task)) :
      Moves s env files (.stepCancel c)
        ((s.remove call.key).moveCancel c call (.marking task))
  | withdrawNothing {c : ℕ} {call : CancelCall} (hc : s.cancels[c]? = some call)
      (hs : call.stage = .arrived) (he : s.entry? call.key = none) :
      Moves s env files (.stepCancel c) (s.moveCancel c call (.returned false))
  | markWithdrawn {c : ℕ} {call : CancelCall} {task : ℕ} (hc : s.cancels[c]? = some call)
      (hs : call.stage = .marking task) :
      Moves s env files (.stepCancel c)
        ((s.onTask task Task.markSuperseded).moveCancel c call (.recalling task))
  | callOffWithdrawn {c : ℕ} {call : CancelCall} {task : ℕ} (hc : s.cancels[c]? = some call)
      (hs : call.stage = .recalling task) (ended : Bool) :
      Moves s env files (.stepCancel c)
        ((s.onTask task (·.cancel.2)).moveCancel c call (.returned ended))
  | session {i : ℕ} {t t' : Task} {e : Subprocess.Session.Event} (ht : s.tasks[i]? = some t)
      (hstep : t.sessionStep e = some t') :
      Moves s env files (.session i e) { s with tasks := s.tasks.set i t' }

variable {env : Task.Surroundings} {files files' : FileTree} {a : Action}

/-- The step of a formatting call is one of the moves. -/
lemma moves_of_stepFormat {c : ℕ} {call : FormatCall} (hc : s.formats[c]? = some call)
    (h : s.stepFormat env files c call = some (s', files')) :
    Moves s env files (.stepFormat c) s' := by
  unfold stepFormat at h
  dsimp only at h
  split at h
  · rename_i hs
    cases h
    exact .number hc hs
  · rename_i hs
    cases h
    exact .insert hc hs
  · rename_i stale hs
    cases h
    exact .mark hc hs
  · rename_i stale hs
    cases h
    exact .callOff hc hs
  · rename_i hs
    split at h
    · cases h
    · rename_i t ht
      split at h
      · rename_i o ho
        cases h
        exact .finish hc hs ht (Task.outcome?_eq_some_iff.mp ho)
      · split at h
        · rename_i hu
          split at h
          · rename_i t' hb
            cases h
            have hi : t.state = .idle := by
              by_contra hne
              simp [Task.begin_of_not_idle hne] at hb
            have hmoves : Moves s env files (.stepFormat c) _ := .begin hc hs ht hu hi
            rwa [hb] at hmoves
          · rename_i t' hb
            cases h
            refine .refuse hc hs ht hu fun hi => ?_
            simp [Task.begin_of_idle hi] at hb
        · obtain ⟨⟨t', files''⟩, hadv, heq⟩ := Option.map_eq_some_iff.mp h
          cases heq
          exact .advance hc hs ht hadv
  · rename_i o hs
    split at h
    · rename_i owner task he
      split at h
      · rename_i hid
        cases h
        subst hid
        exact .leave hc hs he
      · rename_i hid
        cases h
        refine .leaveStale hc hs fun task' he' => hid ?_
        unfold FormatCall.key at he'
        rw [he] at he'
        cases he'
        rfl
    · rename_i he
      cases h
      refine .leaveStale hc hs fun task' he' => ?_
      unfold FormatCall.key at he'
      rw [he] at he'
      cases he'
  · cases h

/-- The step of a cancellation is one of the moves. -/
lemma moves_of_stepCancel {c : ℕ} {call : CancelCall} (hc : s.cancels[c]? = some call)
    (h : s.stepCancel c call = some s') : Moves s env files (.stepCancel c) s' := by
  unfold stepCancel at h
  split at h
  · rename_i hs
    split at h
    · rename_i id task he
      cases h
      exact .withdraw hc hs he
    · rename_i he
      cases h
      exact .withdrawNothing hc hs he
  · rename_i task hs
    cases h
    exact .markWithdrawn hc hs
  · rename_i task hs
    split at h
    · rename_i t ht
      cases h
      have hmoves : Moves s env files (.stepCancel c) _ := .callOffWithdrawn hc hs t.cancel.1
      rwa [onTask, ht] at hmoves
    · rename_i ht
      cases h
      have hmoves : Moves s env files (.stepCancel c) _ := .callOffWithdrawn hc hs false
      rwa [onTask, ht] at hmoves
  · cases h

/-- Every step that is possible is one of the moves. -/
lemma moves_of_step (h : s.step env files a = some (s', files')) : Moves s env files a s' := by
  cases a with
  | format r =>
    cases h
    exact .format r
  | cancel p =>
    cases h
    exact .cancel p
  | stepFormat c =>
    obtain ⟨call, hc, h⟩ := Option.bind_eq_some_iff.mp h
    exact moves_of_stepFormat hc h
  | stepCancel c =>
    obtain ⟨call, hc, h⟩ := Option.bind_eq_some_iff.mp h
    obtain ⟨s'', hcancel, heq⟩ := Option.map_eq_some_iff.mp h
    cases heq
    exact moves_of_stepCancel hc hcancel
  | session i e =>
    obtain ⟨t, ht, h⟩ := Option.bind_eq_some_iff.mp h
    obtain ⟨t', hstep, heq⟩ := Option.map_eq_some_iff.mp h
    cases heq
    exact .session ht hstep

/-- Every turn that is possible is one of the moves. -/
lemma moves_of_next {l : Turn} (h : s.next l = some s') : Moves s l.env l.files l.action s' := by
  obtain ⟨⟨s'', files'⟩, hstep, rfl⟩ := Option.map_eq_some_iff.mp h
  exact moves_of_step hstep

/-! ## What a step makes of one call -/

/-- What its step makes of a formatting call. -/
inductive FormatCall.Advances (s s' : Service) (call : FormatCall) : FormatCall → Prop where
  | number (hs : call.stage = .arrived)
      (ht : s'.tasks[s.tasks.length]? = some (s.newTask call)) :
      Advances s s' call { call with id := s.nextId, task := s.tasks.length, stage := .numbered }
  | insert (hs : call.stage = .numbered)
      (he : s'.entry? call.key = some (call.id, call.task)) :
      Advances s s' call { call with stage := .ofDisplaced (s.entry? call.key) }
  | mark {stale : ℕ} (hs : call.stage = .marking stale)
      (hm : ∀ t, s'.tasks[stale]? = some t → t.superseded = true) :
      Advances s s' call { call with stage := .recalling stale }
  | callOff {stale : ℕ} (hs : call.stage = .recalling stale)
      (hoff : ∀ t, s'.tasks[stale]? = some t → t.session.state ≠ .started) :
      Advances s s' call { call with stage := .running }
  | refuse {t : Task} (hs : call.stage = .running) (ht : s.tasks[call.task]? = some t)
      (hu : t.stage = .unrun) (hi : t.state ≠ .idle) :
      Advances s s' call { call with stage := .leaving Task.rerunOutcome }
  | finish {t : Task} {o : Outcome} (hs : call.stage = .running)
      (ht : s'.tasks[call.task]? = some t) (ho : t.stage = .returned o) :
      Advances s s' call { call with stage := .leaving o }
  | leave {o : Outcome} {task : ℕ} (hs : call.stage = .leaving o)
      (he : s.entry? call.key = some (call.id, task)) (he' : s'.entry? call.key = none) :
      Advances s s' call { call with stage := .returned o }
  | leaveStale {o : Outcome} (hs : call.stage = .leaving o)
      (he : ∀ task, s.entry? call.key ≠ some (call.id, task)) :
      Advances s s' call { call with stage := .returned .cancelled }

/-- What its step makes of a cancellation. -/
inductive CancelCall.Advances (s s' : Service) (call : CancelCall) : CancelCall → Prop where
  | withdraw {id task : ℕ} (hs : call.stage = .arrived)
      (he : s.entry? call.key = some (id, task)) (he' : s'.entry? call.key = none) :
      Advances s s' call { call with stage := .marking task }
  | withdrawNothing (hs : call.stage = .arrived) (he : s.entry? call.key = none) :
      Advances s s' call { call with stage := .returned false }
  | mark {task : ℕ} (hs : call.stage = .marking task)
      (hm : ∀ t, s'.tasks[task]? = some t → t.superseded = true) :
      Advances s s' call { call with stage := .recalling task }
  | callOff {task : ℕ} {ended : Bool} (hs : call.stage = .recalling task)
      (hoff : ∀ t, s'.tasks[task]? = some t → t.session.state ≠ .started) :
      Advances s s' call { call with stage := .returned ended }

/-- What a step makes of the formatting call `d`. -/
inductive FormatMoves (s s' : Service) (a : Action) (d : ℕ) : Prop where
  /-- It is not its step, or it is its task that gets on. -/
  | stays (h : s'.formats[d]? = s.formats[d]?)
      (ha : a = .stepFormat d → ∃ call, s.formats[d]? = some call ∧ call.stage = .running)
  | arrives (r : Request) (h : s.formats[d]? = none) (h' : s'.formats[d]? = some { request := r })
  | advances {call call' : FormatCall} (ha : a = .stepFormat d) (h : s.formats[d]? = some call)
      (h' : s'.formats[d]? = some call') (hadv : call.Advances s s' call')

/-- What a step makes of the cancellation `d`. -/
inductive CancelMoves (s s' : Service) (a : Action) (d : ℕ) : Prop where
  | stays (h : s'.cancels[d]? = s.cancels[d]?) (ha : a ≠ .stepCancel d)
  | arrives (key : Path.Key) (h : s.cancels[d]? = none) (h' : s'.cancels[d]? = some { key })
  | advances {call call' : CancelCall} (ha : a = .stepCancel d) (h : s.cancels[d]? = some call)
      (h' : s'.cancels[d]? = some call') (hadv : call.Advances s s' call')

/-- Whoever has just been marked is marked. -/
lemma superseded_of_modify {i : ℕ} {t : Task}
    (ht : (s.onTask i Task.markSuperseded).tasks[i]? = some t) : t.superseded = true := by
  rw [onTask_eq, List.getElem?_modify_eq] at ht
  obtain ⟨t₀, -, rfl⟩ := Option.map_eq_some_iff.mp ht
  rfl

/-- Whoever has just been cancelled has no formatter running. -/
lemma not_started_of_modify {i : ℕ} {t : Task}
    (ht : (s.onTask i (·.cancel.2)).tasks[i]? = some t) : t.session.state ≠ .started := by
  rw [onTask_eq, List.getElem?_modify_eq] at ht
  obtain ⟨t₀, -, rfl⟩ := Option.map_eq_some_iff.mp ht
  exact Task.cancel_session_state_ne

/-- Where one call gets on, the others stay. -/
lemma formatMoves_of_set {c : ℕ} {call call' : FormatCall} (hc : s.formats[c]? = some call)
    (hs' : s'.formats = s.formats.set c call') (hadv : call.Advances s s' call') {d : ℕ} :
    FormatMoves s s' (.stepFormat c) d := by
  by_cases hd : d = c
  · subst d
    refine .advances rfl hc ?_ hadv
    rw [hs', List.getElem?_set_self (List.getElem?_eq_some_iff.mp hc).1]
  · exact .stays (by rw [hs', List.getElem?_set_ne (Ne.symm hd)])
      fun ha => absurd (Action.stepFormat.inj ha).symm hd

/-- A call whose task gets on stays where it is. -/
lemma formatMoves_of_running {c : ℕ} {call : FormatCall} (hc : s.formats[c]? = some call)
    (hs : call.stage = .running) (hs' : s'.formats = s.formats) {d : ℕ} :
    FormatMoves s s' (.stepFormat c) d :=
  .stays (by rw [hs']) fun ha => ⟨call, by rw [← Action.stepFormat.inj ha, hc], hs⟩

/-- Where one cancellation gets on, the others stay. -/
lemma cancelMoves_of_set {c : ℕ} {call call' : CancelCall} (hc : s.cancels[c]? = some call)
    (hs' : s'.cancels = s.cancels.set c call') (hadv : call.Advances s s' call') {d : ℕ} :
    CancelMoves s s' (.stepCancel c) d := by
  by_cases hd : d = c
  · subst d
    refine .advances rfl hc ?_ hadv
    rw [hs', List.getElem?_set_self (List.getElem?_eq_some_iff.mp hc).1]
  · exact .stays (by rw [hs', List.getElem?_set_ne (Ne.symm hd)])
      fun ha => hd (Action.stepCancel.inj ha).symm

/-- What every step makes of the formatting calls, one by one. -/
lemma formatMoves (h : Moves s env files a s') (d : ℕ) : FormatMoves s s' a d := by
  cases h with
  | format r =>
    rcases Nat.lt_trichotomy d s.formats.length with hd | rfl | hd
    · exact .stays (List.getElem?_append_left hd) (by simp)
    · exact .arrives r (by simp) (by simp [format])
    · exact .stays (by simp [format, hd, hd.le]) (by simp)
  | number hc hs => exact formatMoves_of_set hc rfl (.number hs (by simp))
  | insert hc hs => exact formatMoves_of_set hc rfl (.insert hs (by simp [entry?_insert]))
  | mark hc hs =>
    apply formatMoves_of_set hc
    · rw [moveFormat_formats, onTask_formats]
    · exact .mark hs fun _ ht => superseded_of_modify ht
  | callOff hc hs =>
    apply formatMoves_of_set hc
    · rw [moveFormat_formats, onTask_formats]
    · exact .callOff hs fun _ ht => not_started_of_modify ht
  | begin hc hs => exact formatMoves_of_running hc hs (by rfl)
  | refuse hc hs ht hu hi => exact formatMoves_of_set hc rfl (.refuse hs ht hu hi)
  | advance hc hs => exact formatMoves_of_running hc hs (by rfl)
  | finish hc hs ht ho => exact formatMoves_of_set hc rfl (.finish hs (by exact ht) ho)
  | leave hc hs he =>
    exact formatMoves_of_set hc rfl (.leave hs he (by simp [entry?_remove]))
  | leaveStale hc hs he => exact formatMoves_of_set hc rfl (.leaveStale hs he)
  | markWithdrawn | callOffWithdrawn => exact .stays (by simp) (by simp)
  | cancel | withdraw | withdrawNothing | session => exact .stays rfl (by simp)

/-- Only the step of a running call may leave the call as it is. -/
lemma advances_of_stepFormat {c : ℕ} {call : FormatCall} (h : Moves s env files (.stepFormat c) s')
    (hc : s.formats[c]? = some call) (hs : call.stage ≠ .running) :
    ∃ call', s'.formats[c]? = some call' ∧ call.Advances s s' call' := by
  cases formatMoves h c with
  | stays _ hrun =>
    obtain ⟨call₀, hc₀, hs₀⟩ := hrun rfl
    obtain rfl := Option.some.inj (hc.symm.trans hc₀)
    exact absurd hs₀ hs
  | arrives r hnone => simp [hc] at hnone
  | advances _ hc₀ hc' hadv =>
    obtain rfl := Option.some.inj (hc₀.symm.trans hc)
    exact ⟨_, hc', hadv⟩

/-- What every step makes of the cancellations, one by one. -/
lemma cancelMoves (h : Moves s env files a s') (d : ℕ) : CancelMoves s s' a d := by
  cases h with
  | cancel p =>
    rcases Nat.lt_trichotomy d s.cancels.length with hd | rfl | hd
    · exact .stays (List.getElem?_append_left hd) (by simp)
    · exact .arrives p.key (by simp) (by simp [cancel])
    · exact .stays (by simp [cancel, hd, hd.le]) (by simp)
  | withdraw hc hs he =>
    exact cancelMoves_of_set hc rfl (.withdraw hs he (by simp [entry?_remove]))
  | withdrawNothing hc hs he => exact cancelMoves_of_set hc rfl (.withdrawNothing hs he)
  | markWithdrawn hc hs =>
    apply cancelMoves_of_set hc
    · rw [moveCancel_cancels, onTask_cancels]
    · exact .mark hs fun _ ht => superseded_of_modify ht
  | callOffWithdrawn hc hs =>
    apply cancelMoves_of_set hc
    · rw [moveCancel_cancels, onTask_cancels]
    · exact .callOff hs fun _ ht => not_started_of_modify ht
  | mark | callOff => exact .stays (by simp) (by simp)
  | format | number | insert | begin | refuse | advance | finish | leave | leaveStale | session =>
    exact .stays rfl (by simp)

/-- What a call has been before a step. -/
lemma format_before (h : Moves s env files a s') {c : ℕ} {call' : FormatCall}
    (hc : s'.formats[c]? = some call') :
    s.formats[c]? = some call' ∨ call'.stage = .arrived ∨
      ∃ call, s.formats[c]? = some call ∧ call.Advances s s' call' := by
  cases formatMoves h c with
  | stays hsame => exact .inl (hsame.symm.trans hc)
  | arrives r _ h' =>
    obtain rfl := Option.some.inj (h'.symm.trans hc)
    exact .inr (.inl rfl)
  | advances _ hcall h' hadv =>
    obtain rfl := Option.some.inj (h'.symm.trans hc)
    exact .inr (.inr ⟨_, hcall, hadv⟩)

/-- What becomes of a call by a step. -/
lemma format_after (h : Moves s env files a s') {c : ℕ} {call : FormatCall}
    (hc : s.formats[c]? = some call) : s'.formats[c]? = some call ∨
      ∃ call', s'.formats[c]? = some call' ∧ call.Advances s s' call' := by
  cases formatMoves h c with
  | stays hsame => exact .inl (hsame.trans hc)
  | arrives r hnone => simp [hc] at hnone
  | advances _ hcall h' hadv =>
    obtain rfl := Option.some.inj (hcall.symm.trans hc)
    exact .inr ⟨_, h', hadv⟩

/-- Where a cancellation has been before a step. -/
lemma cancel_before (h : Moves s env files a s') {c : ℕ} {call' : CancelCall}
    (hc : s'.cancels[c]? = some call') :
    s.cancels[c]? = some call' ∨ call'.stage = .arrived ∨
      ∃ call, s.cancels[c]? = some call ∧ call.Advances s s' call' := by
  cases cancelMoves h c with
  | stays hsame => exact .inl (hsame.symm.trans hc)
  | arrives key _ h' =>
    obtain rfl := Option.some.inj (h'.symm.trans hc)
    exact .inr (.inl rfl)
  | advances _ hcall h' hadv =>
    obtain rfl := Option.some.inj (h'.symm.trans hc)
    exact .inr (.inr ⟨_, hcall, hadv⟩)

/-- Where a cancellation is behind a step. -/
lemma cancel_after (h : Moves s env files a s') {c : ℕ} {call : CancelCall}
    (hc : s.cancels[c]? = some call) : s'.cancels[c]? = some call ∨
      ∃ call', s'.cancels[c]? = some call' ∧ call.Advances s s' call' := by
  cases cancelMoves h c with
  | stays hsame => exact .inl (hsame.trans hc)
  | arrives key hnone => simp [hc] at hnone
  | advances _ hcall h' hadv =>
    obtain rfl := Option.some.inj (hcall.symm.trans hc)
    exact .inr ⟨_, h', hadv⟩

/-- A cancellation that has not returned gets on with its step. -/
lemma advances_of_stepCancel {c : ℕ} {call : CancelCall} (h : Moves s env files (.stepCancel c) s')
    (hc : s.cancels[c]? = some call) :
    ∃ call', s'.cancels[c]? = some call' ∧ call.Advances s s' call' := by
  cases cancelMoves h c with
  | stays _ hne => exact absurd rfl hne
  | arrives key hnone => simp [hc] at hnone
  | advances _ hcall h' hadv =>
    obtain rfl := Option.some.inj (hcall.symm.trans hc)
    exact ⟨_, h', hadv⟩

/-! ## What a step makes of one task -/

/-- Somebody has put something in the place of this task and is about to mark it. -/
def Marks (s : Service) (i : ℕ) : Prop :=
  (∃ (c : ℕ) (call : FormatCall), s.formats[c]? = some call ∧ call.stage = .marking i) ∨
  (∃ (c : ℕ) (call : CancelCall), s.cancels[c]? = some call ∧ call.stage = .marking i)

/-- Somebody has marked this task and is about to cancel it. -/
def Recalls (s : Service) (i : ℕ) : Prop :=
  (∃ (c : ℕ) (call : FormatCall), s.formats[c]? = some call ∧ call.stage = .recalling i) ∨
  (∃ (c : ℕ) (call : CancelCall), s.cancels[c]? = some call ∧ call.stage = .recalling i)

/-- What a step makes of the task `i`. -/
inductive TaskMoves (s s' : Service) (a : Action) (i : ℕ) : Prop where
  | stays (h : s'.tasks[i]? = s.tasks[i]?)
  | arrives {c : ℕ} {call : FormatCall} (hc : s.formats[c]? = some call)
      (hs : call.stage = .arrived) (hi : i = s.tasks.length)
      (hc' : s'.formats[c]? = some
        { call with id := s.nextId, task := s.tasks.length, stage := .numbered })
      (h' : s'.tasks[i]? = some (s.newTask call))
  /-- Its run gets on. -/
  | runs {c : ℕ} {call : FormatCall} {t t' : Task} (ha : a = .stepFormat c)
      (hc : s.formats[c]? = some call) (hs : call.stage = .running) (hi : call.task = i)
      (h : s.tasks[i]? = some t) (h' : s'.tasks[i]? = some t')
      (hmoves : t.Moves (Recalls s' i) (Recalls s i) t')
  /-- Others act on it. -/
  | moves {t t' : Task} (h : s.tasks[i]? = some t) (h' : s'.tasks[i]? = some t')
      (hmoves : t.Moves (Recalls s' i) (Recalls s i) t') (hstage : t'.stage = t.stage)

/-- Where one task gets on, the others stay. -/
lemma taskMoves_of_set {j : ℕ} {t t' : Task} (ht : s.tasks[j]? = some t)
    (hs' : s'.tasks = s.tasks.set j t') {i : ℕ}
    (hmoves : i = j → s'.tasks[i]? = some t' → TaskMoves s s' a i) : TaskMoves s s' a i := by
  by_cases hi : i = j
  · refine hmoves hi ?_
    rw [hs', hi, List.getElem?_set_self (List.getElem?_eq_some_iff.mp ht).1]
  · exact .stays (by rw [hs', List.getElem?_set_ne (Ne.symm hi)])

/-- Somebody marks or cancels a task. -/
lemma taskMoves_of_modify {j : ℕ} {f : Task → Task} (hs' : s'.tasks = s.tasks.modify j f)
    (hmoves : ∀ t : Task, t.Moves (Recalls s' j) (Recalls s j) (f t))
    (hstage : ∀ t, (f t).stage = t.stage) (i : ℕ) : TaskMoves s s' a i := by
  by_cases hi : i = j
  · subst i
    cases ht : s.tasks[j]? with
    | none => exact .stays (by rw [hs', List.getElem?_modify_eq, ht]; rfl)
    | some t =>
      exact .moves ht (by rw [hs', List.getElem?_modify_eq, ht]; rfl) (hmoves t) (hstage t)
  · exact .stays (by rw [hs', List.getElem?_modify_ne _ _ (Ne.symm hi)])

/-- What every step makes of the tasks, one by one. -/
lemma taskMoves (h : Moves s env files a s') (i : ℕ) : TaskMoves s s' a i := by
  cases h with
  | @number c call hc hs =>
    have hlt := (List.getElem?_eq_some_iff.mp hc).1
    rcases Nat.lt_trichotomy i s.tasks.length with hi | rfl | hi
    · exact .stays (by simp [List.getElem?_append_left hi])
    · exact .arrives hc hs rfl (by simp [hlt]) (by simp)
    · exact .stays (by simp [hi, hi.le])
  | @mark c call stale hc hs =>
    have hlt := (List.getElem?_eq_some_iff.mp hc).1
    refine taskMoves_of_modify (j := stale) (f := Task.markSuperseded) (by simp [onTask_eq])
      (fun _ => .marks (.inl ⟨c, { call with stage := .recalling stale }, ?_, rfl⟩))
      (fun _ => rfl) i
    simp [onTask_eq, hlt]
  | @callOff c call stale hc hs =>
    exact taskMoves_of_modify (j := stale) (f := (·.cancel.2)) (by simp [onTask_eq])
      (fun _ => .cancels (.inl ⟨c, call, hc, hs⟩)) (fun _ => rfl) i
  | begin hc hs ht =>
    exact taskMoves_of_set ht rfl fun hi ht' => .runs rfl hc hs hi.symm (hi ▸ ht) ht' .begins
  | advance hc hs ht hadv =>
    exact taskMoves_of_set ht rfl fun hi ht' =>
      .runs rfl hc hs hi.symm (hi ▸ ht) ht' (.advances hadv)
  | @markWithdrawn c call task hc hs =>
    have hlt := (List.getElem?_eq_some_iff.mp hc).1
    refine taskMoves_of_modify (j := task) (f := Task.markSuperseded) (by simp [onTask_eq])
      (fun _ => .marks (.inr ⟨c, { call with stage := .recalling task }, ?_, rfl⟩))
      (fun _ => rfl) i
    simp [onTask_eq, hlt]
  | @callOffWithdrawn c call task hc hs =>
    exact taskMoves_of_modify (j := task) (f := (·.cancel.2)) (by simp [onTask_eq])
      (fun _ => .cancels (.inr ⟨c, call, hc, hs⟩)) (fun _ => rfl) i
  | session ht hstep =>
    refine taskMoves_of_set ht rfl fun hi ht' => .moves (hi ▸ ht) ht' (.happens hstep) ?_
    obtain ⟨session, -, rfl⟩ := Task.sessionStep_eq_some hstep
    rfl
  | format | cancel | insert | refuse | finish | leave | leaveStale | withdraw
  | withdrawNothing => exact .stays rfl

/-- As many tasks as numbers. -/
lemma nextId_moves (h : Moves s env files a s') (hn : s.nextId = s.tasks.length) :
    s'.nextId = s'.tasks.length := by
  cases h <;> simp [onTask_eq, format, cancel, hn]

/-! ## What a step makes of the table -/

/-- What a step makes of the entry for one document. -/
inductive EntryMoves (s s' : Service) (a : Action) (key : Path.Key) : Prop where
  | stays (h : s'.entry? key = s.entry? key)
  | inserts {c : ℕ} {call : FormatCall} (ha : a = .stepFormat c)
      (hc : s.formats[c]? = some call) (hs : call.stage = .numbered) (hk : call.key = key)
      (hc' : s'.formats[c]? = some { call with stage := .ofDisplaced (s.entry? key) })
      (h' : s'.entry? key = some (call.id, call.task))
  | leaves {c : ℕ} {call : FormatCall} {o : Outcome} {task : ℕ} (ha : a = .stepFormat c)
      (hc : s.formats[c]? = some call) (hs : call.stage = .leaving o) (hk : call.key = key)
      (hc' : s'.formats[c]? = some { call with stage := .returned o })
      (h : s.entry? key = some (call.id, task)) (h' : s'.entry? key = none)
  | withdraws {c : ℕ} {call : CancelCall} {id task : ℕ} (ha : a = .stepCancel c)
      (hc : s.cancels[c]? = some call) (hs : call.stage = .arrived) (hk : call.key = key)
      (hc' : s'.cancels[c]? = some { call with stage := .marking task })
      (h : s.entry? key = some (id, task)) (h' : s'.entry? key = none)

/-- What every step makes of the table, document by document. -/
lemma entryMoves (h : Moves s env files a s') (key : Path.Key) : EntryMoves s s' a key := by
  cases h with
  | @insert c call hc hs =>
    have hlt := (List.getElem?_eq_some_iff.mp hc).1
    by_cases hk : key = call.key
    · subst hk
      exact .inserts rfl hc hs rfl (by simp [hlt]) (by simp [entry?_insert])
    · exact .stays (by simp [entry?_insert, hk])
  | @leave c call o task hc hs he =>
    have hlt := (List.getElem?_eq_some_iff.mp hc).1
    by_cases hk : key = call.key
    · subst hk
      exact .leaves rfl hc hs rfl (by simp [hlt]) he (by simp [entry?_remove])
    · exact .stays (by simp [entry?_remove, hk])
  | @withdraw c call id task hc hs he =>
    have hlt := (List.getElem?_eq_some_iff.mp hc).1
    by_cases hk : key = call.key
    · subst hk
      exact .withdraws rfl hc hs rfl (by simp [hlt]) he (by simp [entry?_remove])
    · exact .stays (by simp [entry?_remove, hk])
  | mark | callOff | markWithdrawn | callOffWithdrawn => exact .stays (by simp)
  | format | cancel | number | begin | refuse | advance | finish | leaveStale | withdrawNothing
  | session => exact .stays rfl

end Service

end SourceFormat.Formatting
