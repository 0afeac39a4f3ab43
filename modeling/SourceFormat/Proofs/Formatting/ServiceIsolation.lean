import Mathlib
import SourceFormat.Proofs.Formatting.ServiceDisplacement
import SourceFormat.Proofs.Formatting.ServiceView

/-!
# Documents do not see each other

Somebody who looks at one document only sees a run of a service on which there is nothing else.

* `only_of_foreign`: a step of another document changes nothing of what is seen.
* `step_only`: a step of the document is the same step of what is seen.
* `documents_isolated`: so every run is a run of the document alone.

Documents share the files as well.  The run of a task looks at them once, when it settles its option
file, and nothing but what that comes to has to be the same (`SettlesAlike`).
-/

namespace SourceFormat.Formatting

/-- The run of a task that is settling its option file settles on the same one, or fails in the same
way, with these files.  A generated one has a fresh name, which is taken to be the same. -/
def Task.SettlesAlike (t : Task) (env : Task.Surroundings) (files found : FileTree) : Prop :=
  t.stage = .resolving →
    (Config.resolve found env.temporary t.request.projectRoot t.settings t.style).2 =
      (Config.resolve files env.temporary t.request.projectRoot t.settings t.style).2

/-- The option file of a task that is there without generating one. -/
def Task.located (t : Task) (files : FileTree) : Option Config.Location :=
  Config.locate files t.request.projectRoot t.settings

/-- Where there is an option file already, nothing else counts. -/
lemma Task.settlesAlike_of_located {t : Task} {env : Task.Surroundings} {files found : FileTree}
    {location : Config.Location} (h : t.located files = some location)
    (h' : t.located found = some location) : t.SettlesAlike env files found := by
  intro _
  rw [Config.resolve, Config.resolve, ← Task.located, ← Task.located, h, h']

/-- The files matter to a run only when it settles its option file. -/
lemma Task.advance_of_settlesAlike {t t' : Task} {env : Task.Surroundings}
    {files files' found : FileTree} (hadv : t.advance env files = some (t', files'))
    (h : t.SettlesAlike env files found) : ∃ found', t.advance env found = some (t', found') := by
  unfold Task.advance at hadv ⊢
  cases hs : t.stage with
  | resolving =>
    have hsame := h hs
    simp only [hs] at hadv ⊢
    revert hadv hsame
    generalize Config.resolve found env.temporary t.request.projectRoot t.settings t.style = after
    generalize Config.resolve files env.temporary t.request.projectRoot t.settings t.style = before
    obtain ⟨after, answer⟩ := after
    obtain ⟨before, answer'⟩ := before
    rintro (rfl : answer = answer') hadv
    cases answer <;> cases hadv <;> exact ⟨_, rfl⟩
  | unrun | returned =>
    simp only [hs] at hadv
    cases hadv
  | checking | guarding =>
    simp only [hs] at hadv ⊢
    split_ifs at hadv ⊢ <;> cases hadv <;> exact ⟨_, rfl⟩
  | entering | recalling | closing | finishing | unwinding =>
    simp only [hs] at hadv ⊢
    cases hadv
    exact ⟨_, rfl⟩
  | starting =>
    simp only [hs] at hadv ⊢
    split at hadv <;> cases hadv <;> exact ⟨_, rfl⟩
  | awaiting =>
    simp only [hs] at hadv ⊢
    obtain ⟨o, ho, heq⟩ := Option.map_eq_some_iff.mp hadv
    cases heq
    exact ⟨_, by rw [ho]; rfl⟩

/-- No step of its run changes the request of a task. -/
lemma Task.request_advance {t t' : Task} {env : Task.Surroundings} {files files' : FileTree}
    (hadv : t.advance env files = some (t', files')) : t'.request = t.request :=
  Task.request_moves (.advances hadv : Task.Moves False False t t')

/-- No step of its session changes the request of a task. -/
lemma Task.request_sessionStep {t t' : Task} {e : Subprocess.Session.Event}
    (hstep : t.sessionStep e = some t') : t'.request = t.request :=
  Task.request_moves (.happens hstep : Task.Moves False False t t')

namespace Service

variable {s s' : Service} {env : Task.Surroundings} {files files' found : FileTree} {a : Action}
  {key : Path.Key} {c i : ℕ} {call : FormatCall} {stage : FormatStage} {cancellation : CancelCall}
  {phase : CancelStage} {t t' : Task}

/-- A call for the document draws the number there that it is known by there. -/
lemma stepFormat_only_number (h : s.Coherent) (ha : s.Akin) (hc : s.formats[c]? = some call)
    (hkey : call.key = key) (hs : call.stage = .arrived) :
    (s.only key).stepFormat env found (place (FormatCall.isFor key) s.formats c)
        (call.renumber (s.number key)) =
      some (({ s with nextId := s.nextId + 1, tasks := s.tasks ++ [s.newTask call] }.moveFormat c
        { call with id := s.nextId, task := s.tasks.length } .numbered).only key, found) := by
  have hnumbered : FormatCall.key { call with id := s.nextId, task := s.tasks.length } = key :=
    hkey
  rw [only_moveFormat
    (s := { s with nextId := s.nextId + 1, tasks := s.tasks ++ [s.newTask call] })
    hc hkey hnumbered,
    only_addTask (t := s.newTask call) h ha hkey]
  simp only [stepFormat, FormatCall.renumber, hs, FormatStage.renumber]
  have hid : number { s with nextId := s.nextId + 1, tasks := s.tasks ++ [s.newTask call] } key
      s.nextId = s.number key s.nextId := number_addTask h.counted.le
  have htask : number { s with nextId := s.nextId + 1, tasks := s.tasks ++ [s.newTask call] } key
      s.tasks.length = (s.only key).tasks.length := by
    rw [number_addTask le_rfl]
    exact place_length
  rw [hid, htask]
  rfl

/-- Its task gets on there as it does here. -/
lemma stepFormat_only_advance (hs : call.stage = .running) (ht : s.tasks[call.task]? = some t)
    (htkey : t.request.fileName.key = key) (hadv : t.advance env files = some (t', files'))
    (hfound : t.SettlesAlike env files found) (c : ℕ) :
    ∃ found', (s.only key).stepFormat env found c (call.renumber (s.number key)) =
      some ({ s with tasks := s.tasks.set call.task t' }.only key, found') := by
  obtain ⟨found', hadv'⟩ := Task.advance_of_settlesAlike hadv hfound
  refine ⟨found', ?_⟩
  have hunrun : t.stage ≠ .unrun := by
    intro hu
    simp [Task.advance, hu] at hadv
  have hnone : t.outcome? = none := by
    rw [← not_ne_iff, ← Option.isSome_iff_ne_none]
    intro ho
    obtain ⟨o, ho⟩ := Option.isSome_iff_exists.mp ho
    simp [Task.advance, Task.outcome?_eq_some_iff.mp ho] at hadv
  rw [only_setTask ht (Task.request_advance hadv) htkey]
  simp only [stepFormat, FormatCall.renumber, hs, FormatStage.renumber,
    getElem?_tasks_only ht htkey, hnone, if_neg hunrun, hadv', Option.map_some]

/-- An entry that is not the call's own here is not its own there either. -/
lemma entry?_only_ne (h : s.Coherent) (hc : s.formats[c]? = some call) (hkey : call.key = key)
    (hs : call.stage ≠ .arrived) (he : ∀ task, s.entry? key ≠ some (call.id, task)) {owner : ℕ}
    (hentry : s.entry? key = some (owner, i)) : s.number key owner ≠ s.number key call.id := by
  intro hsame
  obtain ⟨rfl, t, ht, htkey⟩ := h.task_of_entry hentry
  obtain ⟨hid, t', ht', -⟩ := h.known hc hs
  have htkey' := (h.task_of_call hc hs ht').trans hkey
  rw [hid] at hsame he
  exact he _ (by rw [number_inj ht' htkey' ht htkey hsame.symm, hentry])

/-- A step of a call for the document is a step of the call there. -/
lemma stepFormat_only (h : s.Coherent) (ha : s.Akin) (hc : s.formats[c]? = some call)
    (hkey : call.key = key) (hstep : s.stepFormat env files c call = some (s', files'))
    (hfound : ∀ t, s.tasks[call.task]? = some t → t.SettlesAlike env files found) :
    ∃ found', (s.only key).stepFormat env found (place (FormatCall.isFor key) s.formats c)
      (call.renumber (s.number key)) = some (s'.only key, found') := by
  have hrequest : call.request.fileName.key = key := hkey
  have htask : call.stage ≠ .arrived → ∀ t, s.tasks[call.task]? = some t →
      t.request.fileName.key = key := fun hs t ht => (h.task_of_call hc hs ht).trans hkey
  cases moves_of_stepFormat hc hstep with
  | number hc' hs =>
    obtain rfl := Option.some.inj (hc.symm.trans hc')
    exact ⟨found, stepFormat_only_number h ha hc hkey hs⟩
  | insert hc' hs =>
    obtain rfl := Option.some.inj (hc.symm.trans hc')
    refine ⟨found, ?_⟩
    rw [only_moveFormat (s := s.insert call.key call.id call.task) hc hkey hkey, hkey, only_insert]
    simp only [stepFormat, FormatCall.renumber, hs, FormatStage.renumber, hrequest, entry?_only]
    cases s.entry? key <;> rfl
  | @mark _ _ stale hc' hs =>
    obtain rfl := Option.some.inj (hc.symm.trans hc')
    obtain ⟨t, ht, htkey⟩ := ha.format hc (by rw [hs]; rfl)
    refine ⟨found, ?_⟩
    rw [only_moveFormat_onTask hc hkey ht rfl (htkey.trans hkey)]
    simp only [stepFormat, FormatCall.renumber, hs, FormatStage.renumber]
  | @callOff _ _ stale hc' hs =>
    obtain rfl := Option.some.inj (hc.symm.trans hc')
    obtain ⟨t, ht, htkey⟩ := ha.format hc (by rw [hs]; rfl)
    refine ⟨found, ?_⟩
    rw [only_moveFormat_onTask hc hkey ht rfl (htkey.trans hkey)]
    simp only [stepFormat, FormatCall.renumber, hs, FormatStage.renumber]
  | @begin _ _ t hc' hs ht hu hi =>
    obtain rfl := Option.some.inj (hc.symm.trans hc')
    have htkey := htask (by simp [hs]) _ ht
    refine ⟨found, ?_⟩
    rw [only_setTask ht Task.begin_request htkey]
    have hnone : t.outcome? = none := by rw [Task.outcome?, hu]
    simp only [stepFormat, FormatCall.renumber, hs, FormatStage.renumber,
      getElem?_tasks_only ht htkey, hnone, hu, if_pos, Task.begin_of_idle hi]
  | @refuse _ _ t hc' hs ht hu hi =>
    obtain rfl := Option.some.inj (hc.symm.trans hc')
    have htkey := htask (by simp [hs]) _ ht
    refine ⟨found, ?_⟩
    rw [only_moveFormat hc hkey hkey]
    have hnone : t.outcome? = none := by rw [Task.outcome?, hu]
    simp only [stepFormat, FormatCall.renumber, hs, FormatStage.renumber,
      getElem?_tasks_only ht htkey, hnone, hu, if_pos, Task.begin_of_not_idle hi]
  | @advance _ _ t t' _ hc' hs ht hadv =>
    obtain rfl := Option.some.inj (hc.symm.trans hc')
    exact stepFormat_only_advance hs ht (htask (by simp [hs]) _ ht) hadv (hfound _ ht) _
  | finish hc' hs ht ho =>
    obtain rfl := Option.some.inj (hc.symm.trans hc')
    have htkey := htask (by simp [hs]) _ ht
    refine ⟨found, ?_⟩
    rw [only_moveFormat hc hkey hkey]
    simp only [stepFormat, FormatCall.renumber, hs, FormatStage.renumber,
      getElem?_tasks_only ht htkey, Task.outcome?_eq_some_iff.mpr ho]
  | @leave _ _ o task hc' hs he =>
    obtain rfl := Option.some.inj (hc.symm.trans hc')
    refine ⟨found, ?_⟩
    rw [only_moveFormat (s := s.remove call.key) hc hkey hkey, hkey, only_remove]
    rw [hkey] at he
    simp only [stepFormat, FormatCall.renumber, hs, FormatStage.renumber, hrequest, entry?_only, he,
      Option.map_some, if_pos]
    rfl
  | leaveStale hc' hs he =>
    obtain rfl := Option.some.inj (hc.symm.trans hc')
    refine ⟨found, ?_⟩
    rw [only_moveFormat hc hkey hkey]
    rw [hkey] at he
    simp only [stepFormat, FormatCall.renumber, hs, FormatStage.renumber, hrequest, entry?_only]
    cases hentry : s.entry? key with
    | none => rfl
    | some entry =>
      obtain ⟨owner, i⟩ := entry
      have hne := entry?_only_ne h hc hkey (by simp [hs]) he hentry
      simp only [Option.map_some, if_neg hne]

/-- A step of a cancellation for the document is a step of the cancellation there. -/
lemma stepCancel_only (ha : s.Akin) (hc : s.cancels[c]? = some cancellation)
    (hkey : cancellation.key = key) (hstep : s.stepCancel c cancellation = some s') :
    (s.only key).stepCancel (place (CancelCall.isFor key) s.cancels c)
      (cancellation.renumber (s.number key)) = some (s'.only key) := by
  cases hs : cancellation.stage with
  | arrived =>
    simp only [stepCancel, CancelCall.renumber, hs, CancelStage.renumber, hkey, entry?_only]
      at hstep ⊢
    cases he : s.entry? key with
    | none =>
      rw [he] at hstep
      cases hstep
      rw [only_moveCancel hc hkey]
      simp only [Option.map_none, CancelCall.renumber, hs, CancelStage.renumber, hkey]
    | some entry =>
      rw [he] at hstep
      cases hstep
      rw [only_moveCancel (s := s.remove key) hc hkey, only_remove]
      simp only [Option.map_some, CancelCall.renumber, hs, CancelStage.renumber, hkey]
      rfl
  | marking i =>
    obtain ⟨t, ht, htkey⟩ := ha.cancel hc (by rw [hs]; rfl)
    simp only [stepCancel, CancelCall.renumber, hs, CancelStage.renumber] at hstep ⊢
    cases hstep
    rw [only_moveCancel_onTask hc hkey ht rfl (htkey.trans hkey)]
    simp only [CancelCall.renumber, hs, CancelStage.renumber]
  | recalling i =>
    obtain ⟨t, ht, htkey⟩ := ha.cancel hc (by rw [hs]; rfl)
    have hinner := getElem?_tasks_only ht (htkey.trans hkey)
    simp only [stepCancel, CancelCall.renumber, hs, CancelStage.renumber, ht, hinner] at hstep ⊢
    cases hstep
    have hseen : ((s.onTask i (·.cancel.2)).moveCancel c cancellation
        (.returned t.cancel.1)).only key = _ :=
      only_moveCancel_onTask hc hkey ht rfl (htkey.trans hkey)
    rw [onTask_of_getElem? ht, onTask_of_getElem? hinner] at hseen
    rw [hseen]
    simp only [CancelCall.renumber, hs, CancelStage.renumber]
  | returned =>
    simp only [stepCancel, hs] at hstep
    cases hstep

/-- A step of another document changes nothing. -/
lemma only_of_foreign (h : s.Coherent) (ha : s.Akin) (hm : Moves s env files a s')
    (hother : a.only? s key = none) : s'.only key = s.only key := by
  have hformat : ∀ {c : ℕ} {call : FormatCall}, a = .stepFormat c → s.formats[c]? = some call →
      call.key ≠ key := by
    rintro c call rfl hc hkey
    simp [Action.only?, hc, isFor_of_key_eq hkey] at hother
  have hcancel : ∀ {c : ℕ} {call : CancelCall}, a = .stepCancel c → s.cancels[c]? = some call →
      call.key ≠ key := by
    rintro c call rfl hc hkey
    simp [Action.only?, hc, cancelIsFor_of_key_eq hkey] at hother
  -- whoever gets on is for another document, and so is the task that a call is after (`Akin`)
  cases hm with
  | format r => exact only_format_of_ne fun hkey => by simp [Action.only?, hkey] at hother
  | cancel p => exact only_cancel_of_ne fun hkey => by simp [Action.only?, hkey] at hother
  | @number c call hc hs =>
    have hne := hformat rfl hc
    have hnumbered : FormatCall.key { call with id := s.nextId, task := s.tasks.length } ≠ key :=
      hne
    rw [only_moveFormat_of_ne
      (s := { s with nextId := s.nextId + 1, tasks := s.tasks ++ [s.newTask call] })
      hc hne hnumbered]
    exact only_addTask_of_ne (t := s.newTask call) h ha hne
  | @insert c call hc hs =>
    have hne := hformat rfl hc
    rw [only_moveFormat_of_ne (s := s.insert call.key call.id call.task) hc hne hne,
      only_insert_of_ne hne]
  | mark hc hs =>
    have hne := hformat rfl hc
    obtain ⟨t, ht, htkey⟩ := ha.format hc (by rw [hs]; rfl)
    rw [only_moveFormat_of_ne (by rw [onTask_formats, hc]) hne hne,
      only_onTask_of_ne ht rfl (htkey ▸ hne)]
  | callOff hc hs =>
    have hne := hformat rfl hc
    obtain ⟨t, ht, htkey⟩ := ha.format hc (by rw [hs]; rfl)
    rw [only_moveFormat_of_ne (by rw [onTask_formats, hc]) hne hne,
      only_onTask_of_ne ht rfl (htkey ▸ hne)]
  | begin hc hs ht hu hi =>
    have hne := hformat rfl hc
    exact only_setTask_of_ne ht Task.begin_request
      ((h.task_of_call hc (by simp [hs]) ht).symm ▸ hne)
  | refuse hc hs ht hu hi =>
    have hne := hformat rfl hc
    exact only_moveFormat_of_ne hc hne hne
  | advance hc hs ht hadv =>
    have hne := hformat rfl hc
    exact only_setTask_of_ne ht (Task.request_advance hadv)
      ((h.task_of_call hc (by simp [hs]) ht).symm ▸ hne)
  | finish hc hs ht ho =>
    have hne := hformat rfl hc
    exact only_moveFormat_of_ne hc hne hne
  | @leave c call _ _ hc hs he =>
    have hne := hformat rfl hc
    rw [only_moveFormat_of_ne (s := s.remove call.key) hc hne hne, only_remove_of_ne hne]
  | leaveStale hc hs he =>
    have hne := hformat rfl hc
    exact only_moveFormat_of_ne hc hne hne
  | @withdraw c call _ _ hc hs he =>
    have hne := hcancel rfl hc
    rw [only_moveCancel_of_ne (s := s.remove call.key) hc hne, only_remove_of_ne hne]
  | withdrawNothing hc hs he => exact only_moveCancel_of_ne hc (hcancel rfl hc)
  | markWithdrawn hc hs =>
    have hne := hcancel rfl hc
    obtain ⟨t, ht, htkey⟩ := ha.cancel hc (by rw [hs]; rfl)
    rw [only_moveCancel_of_ne (by rw [onTask_cancels, hc]) hne,
      only_onTask_of_ne ht rfl (htkey ▸ hne)]
  | callOffWithdrawn hc hs ended =>
    have hne := hcancel rfl hc
    obtain ⟨t, ht, htkey⟩ := ha.cancel hc (by rw [hs]; rfl)
    rw [only_moveCancel_of_ne (by rw [onTask_cancels, hc]) hne,
      only_onTask_of_ne ht rfl (htkey ▸ hne)]
  | session ht hstep =>
    refine only_setTask_of_ne ht (Task.request_sessionStep hstep) fun hkey => ?_
    simp [Action.only?, ht, taskIsFor_of_key_eq hkey] at hother

/-- The task whose run gets on by this step. -/
def Action.task? (s : Service) : Action → Option Task
  | stepFormat c => s.formats[c]?.bind fun call => s.tasks[call.task]?
  | _ => none

/-- A step of the document is the same step of what is seen from it. -/
lemma step_only (h : s.Coherent) (ha : s.Akin) (hstep : s.step env files a = some (s', files'))
    {b : Action} (hb : a.only? s key = some b)
    (hfound : ∀ t, a.task? s = some t → t.SettlesAlike env files found) :
    ∃ found', (s.only key).step env found b = some (s'.only key, found') := by
  cases a with
  | format r =>
    obtain ⟨hkey, ⟨⟩⟩ := Option.ite_none_right_eq_some.mp hb
    cases hstep
    exact ⟨found, by rw [only_format hkey]; rfl⟩
  | cancel p =>
    obtain ⟨hkey, ⟨⟩⟩ := Option.ite_none_right_eq_some.mp hb
    cases hstep
    exact ⟨found, by rw [only_cancel hkey]; rfl⟩
  | stepFormat c =>
    obtain ⟨hfor, ⟨⟩⟩ := Option.ite_none_right_eq_some.mp hb
    obtain ⟨call, hc, hstep⟩ := Option.bind_eq_some_iff.mp hstep
    have hkey : call.key = key := by simpa [hc, FormatCall.isFor] using hfor
    obtain ⟨found', hinner⟩ := stepFormat_only h ha hc hkey hstep fun t ht =>
      hfound t (by simp [Action.task?, hc, ht])
    exact ⟨found', by rw [step, getElem?_formats_only hc hkey]; exact hinner⟩
  | stepCancel c =>
    obtain ⟨hfor, ⟨⟩⟩ := Option.ite_none_right_eq_some.mp hb
    obtain ⟨cancellation, hc, hstep⟩ := Option.bind_eq_some_iff.mp hstep
    obtain ⟨s'', hcancel, heq⟩ := Option.map_eq_some_iff.mp hstep
    cases heq
    have hkey : cancellation.key = key := by simpa [hc, CancelCall.isFor] using hfor
    refine ⟨found, ?_⟩
    rw [step, getElem?_cancels_only hc hkey, Option.bind_some,
      stepCancel_only ha hc hkey hcancel, Option.map_some]
  | session i e =>
    obtain ⟨hfor, ⟨⟩⟩ := Option.ite_none_right_eq_some.mp hb
    obtain ⟨t, ht, hstep⟩ := Option.bind_eq_some_iff.mp hstep
    obtain ⟨t', hsession, heq⟩ := Option.map_eq_some_iff.mp hstep
    cases heq
    have hkey : t.request.fileName.key = key := by simpa [ht, Task.isFor] using hfor
    refine ⟨found, ?_⟩
    rw [only_setTask ht (Task.request_sessionStep hsession) hkey, step,
      getElem?_tasks_only ht hkey, Option.bind_some, hsession, Option.map_some]

/-! ## Runs -/

section runs

variable {settings : Settings} {style : Style}

/-- At every time of a run, whoever is after a task is a call for the document of that task. -/
lemma akin_state (x : Run settings style) {n : ℕ} (hn : n ≤ x.length) : (x.state n).Akin := by
  induction n with
  | zero =>
    rw [x.state_zero]
    exact akin_new settings style
  | succ n ih =>
    exact (ih (by omega)).next (coherent_state x (by omega)) (moves_of_next (x.next_state n hn))

namespace Run

variable (x : Run settings style) (key : Path.Key) (found : ℕ → FileTree)

/-- What the step at time `n` is for one document, if it is one of its own. -/
def action? (n : ℕ) : Option Action := (x.label n).action.only? (x.state n) key

/-- The number of steps for a document before time `n`. -/
def clock (n : ℕ) : ℕ := Execution.seen (x.action? key) n

/-- Where a run for the document settles its option file, it settles alike with these files. -/
def SettlesAlike : Prop :=
  ∀ n t, n < x.length → (x.action? key n).isSome → (x.label n).action.task? (x.state n) = some t →
    t.SettlesAlike (x.label n).env (x.label n).files (found n)

/-- What the turn at time `n` is for one document. -/
def turn? (n : ℕ) : Option Turn :=
  (x.action? key n).map fun action => ⟨(x.label n).env, found n, action⟩

/-- Counting turns is counting steps for the document. -/
lemma seen_turn? (n : ℕ) : Execution.seen (x.turn? key found) n = x.clock key n := by
  simp only [Execution.seen, clock, turn?, Option.isSome_map]

end Run

variable {x : Run settings style} {key : Path.Key} {found : ℕ → FileTree} {n : ℕ}

/-- Other numbers for tasks do not change what a call returns. -/
lemma outcome?_renumber {f : ℕ → ℕ} : (call.renumber f).outcome? = call.outcome? := by
  unfold FormatCall.outcome? FormatCall.renumber
  cases call.stage <;> rfl

/-- Other numbers for tasks do not change what a cancellation answers. -/
lemma answer?_renumber {f : ℕ → ℕ} : (cancellation.renumber f).answer? = cancellation.answer? := by
  unfold CancelCall.answer? CancelCall.renumber
  cases cancellation.stage <;> rfl

/-- A step for the document is the same step of the service that only has this document. -/
lemma only_next_of_turn? (hfound : x.SettlesAlike key found) (hn : n < x.length) {l : Turn}
    (hl : x.turn? key found n = some l) :
    ((x.state n).only key).next l = some ((x.state (n + 1)).only key) := by
  obtain ⟨b, hb, rfl⟩ := Option.map_eq_some_iff.mp hl
  obtain ⟨⟨s', files'⟩, hstep, hstate⟩ := Option.map_eq_some_iff.mp (x.next_state n hn)
  obtain ⟨found', hinner⟩ := step_only (coherent_state x hn.le) (akin_state x hn.le) hstep hb
    fun t ht => hfound n t hn (Option.isSome_iff_exists.mpr ⟨b, hb⟩) ht
  rw [next, hinner, Option.map_some, ← hstate]

/-- A step for another document is none for the service that only has this document. -/
lemma only_next_of_none (hn : n < x.length) (hl : x.turn? key found n = none) :
    (x.state (n + 1)).only key = (x.state n).only key :=
  only_of_foreign (coherent_state x hn.le) (akin_state x hn.le) (moves_of_next (x.next_state n hn))
    (Option.map_eq_none_iff.mp hl)

/-- **Documents are isolated.** Take any order of the steps of any number of calls, and leave out
whatever is done for other documents than this one.  What remains is a run as well, step for step.
Its state is at every time what was seen from the document: the same tasks with the same sessions,
and calls with the same outcomes.  The files that its steps find may be others, as long as the
option files are settled alike. -/
theorem documents_isolated (x : Run settings style) (key : Path.Key) (found : ℕ → FileTree)
    (hfound : x.SettlesAlike key found) :
    ∃ y : Run settings style, y.length = x.clock key x.length ∧
      (∀ n a, n < x.length → x.action? key n = some a →
        y.label (x.clock key n) = ⟨(x.label n).env, found n, a⟩) ∧
      ∀ n, n ≤ x.length →
        y.state (x.clock key n) = (x.state n).only key ∧
        (∀ (c : ℕ) (call : FormatCall), (x.state n).formats[c]? = some call → call.key = key →
          ∃ call' : FormatCall, call'.request = call.request ∧ call'.outcome? = call.outcome? ∧
            (y.state (x.clock key n)).formats[place (FormatCall.isFor key) (x.state n).formats c]? =
              some call') ∧
        (∀ (c : ℕ) (call : CancelCall), (x.state n).cancels[c]? = some call → call.key = key →
          ∃ call' : CancelCall, call'.answer? = call.answer? ∧
            (y.state (x.clock key n)).cancels[place (CancelCall.isFor key) (x.state n).cancels c]? =
              some call') ∧
        ∀ (i : ℕ) (t : Task), (x.state n).tasks[i]? = some t → t.request.fileName.key = key →
          (y.state (x.clock key n)).tasks[(x.state n).number key i]? = some t := by
  -- every step is one of the document's own service, or none there
  have hnext : ∀ n l, n < x.length → x.turn? key found n = some l →
      next ((x.state n).only key) l = some ((x.state (n + 1)).only key) :=
    fun _ _ hn hl => only_next_of_turn? hfound hn hl
  obtain ⟨y, hlength, hstate, hlabel⟩ := x.exists_seen (fun s => s.only key) (x.turn? key found)
    hnext fun _ hn hl => only_next_of_none hn hl
  simp only [Run.seen_turn?] at hlength hstate hlabel
  refine ⟨y, hlength, fun n a hn ha => ?_, fun n hn => ⟨hstate n hn, ?_, ?_, ?_⟩⟩
  · exact hlabel n _ hn (by rw [Run.turn?, ha, Option.map_some])
  · intro c call hc hkey
    exact ⟨call.renumber _, rfl, outcome?_renumber,
      (congrArg (·.formats[_]?) (hstate n hn)).trans (getElem?_formats_only hc hkey)⟩
  · intro c call hc hkey
    exact ⟨call.renumber _, answer?_renumber,
      (congrArg (·.cancels[_]?) (hstate n hn)).trans (getElem?_cancels_only hc hkey)⟩
  · intro i t ht hkey
    exact (congrArg (·.tasks[_]?) (hstate n hn)).trans (getElem?_tasks_only ht hkey)

/-- A run in which a cancellation for one document comes while the formatter of another runs, whose
task is not the first. -/
def interleaved : Run Task.namedOptions {} :=
  Execution.ofLabels next _
    (onSmall
      [[.format (document "1"), .format { fileName := Path.ofString "b.c", text := "2" }],
        [.stepFormat 0, .stepFormat 1, .stepFormat 0], List.replicate 4 (.stepFormat 1),
        List.replicate 6 (.stepFormat 0), [.cancel (document "1").fileName, .stepCancel 0],
        List.replicate 3 (.stepFormat 1), endsWell 1 "2!", [.stepCancel 0, .stepCancel 0],
        List.replicate 5 (.stepFormat 1)])
    (by decide +kernel)

/-- The tree of the small system with one more file. -/
def largerTree : FileTree := Task.optionFileOnly.set [[0x64]] (.file [] false)

/-- The second of two interleaved documents is formatted as if it were the only one. -/
theorem documents_isolated_interleaved :
    ∃ y : Run Task.namedOptions {}, y.length = 19 ∧
      y.state 19 = (interleaved.state interleaved.length).only (Path.ofString "b.c").key ∧
      (y.state 19).formats.map (·.outcome?) = [some (.completed "2!")] := by
  have hfound : interleaved.SettlesAlike (Path.ofString "b.c").key fun _ => largerTree := by
    have hlocated : ∀ n < interleaved.length,
        ∀ t ∈ (interleaved.label n).action.task? (interleaved.state n),
          t.located (interleaved.label n).files = some (.explicit (Path.ofString "/c")) ∧
            t.located largerTree = some (.explicit (Path.ofString "/c")) := by
      decide +kernel
    intro n t hn _ ht
    obtain ⟨hfiles, hlarger⟩ := hlocated n hn t ht
    exact Task.settlesAlike_of_located hfiles hlarger
  obtain ⟨y, hlength, -, h⟩ := documents_isolated interleaved _ _ hfound
  have hclock : interleaved.clock (Path.ofString "b.c").key interleaved.length = 19 := by
    decide +kernel
  have hstate := (h interleaved.length le_rfl).1
  rw [hclock] at hlength hstate
  refine ⟨y, hlength, hstate, ?_⟩
  rw [hstate]
  decide +kernel

end runs

end Service

end SourceFormat.Formatting
