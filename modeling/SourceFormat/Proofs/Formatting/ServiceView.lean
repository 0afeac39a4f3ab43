import Mathlib
import SourceFormat.Proofs.Formatting.ServiceCoherence

/-!
# A service seen from one document

All documents share one table and one counter.  `Service.only` is what is seen of a service from one
document: its calls, its cancellations, its tasks and its entry, with the numbers that they would
have if there were nothing else.

* `only_moveFormat`, `only_insert`, `only_onTask` and so on: a change that is made for the document
  is the same change there, and a change that is made for another is none.
* `only_addTask`: a new task leaves the numbers of the others as they are.
* `Akin`: whoever is about to mark or to cancel a task is a call for the same document.
-/

namespace SourceFormat.Formatting

/-! ## Places among some -/

section place

variable {α : Type} {p : α → Bool} {l : List α} {i j : ℕ} {x y : α}

/-- How many of the first `i` entries are meant: the place of entry `i` among those. -/
def place (p : α → Bool) (l : List α) (i : ℕ) : ℕ := (l.take i).countP p

/-- Behind the last entry all that are meant have been counted. -/
lemma place_length : place p l l.length = (l.filter p).length := by
  rw [place, List.take_length, List.countP_eq_length_filter]

/-- A new last entry counts if it is meant. -/
lemma place_concat : place p (l ++ [x]) (l.length + 1) =
    place p l l.length + if p x = true then 1 else 0 := by
  rw [place, place, List.take_length, List.take_of_length_le (by simp), List.countP_append,
    List.countP_singleton]

/-- What comes behind an entry does not change its place. -/
lemma place_append (hi : i ≤ l.length) (m : List α) : place p (l ++ m) i = place p l i := by
  rw [place, List.take_append_of_le_length hi, place]

/-- Only which entries are meant counts. -/
lemma place_congr {m : List α} (h : m.map p = l.map p) : place p m i = place p l i := by
  have hcount : ∀ l : List α, place p l i = ((l.map p).take i).count true := fun l => by
    rw [place, ← List.map_take, List.count, List.countP_map]
    congr 1
    funext x
    simp
  rw [hcount, hcount, h]

/-- An entry that is replaced by one of its kind leaves all places as they are. -/
lemma place_set (hx : l[i]? = some x) (hp : p y = p x) : place p (l.set i y) j = place p l j := by
  obtain ⟨hi, rfl⟩ := List.getElem?_eq_some_iff.mp hx
  refine place_congr ?_
  rw [List.map_set, hp, ← List.getElem_map p (h := by simpa using hi), List.set_getElem_self]

/-- An entry that is meant takes one place. -/
lemma place_succ (hx : l[i]? = some x) (hp : p x = true) :
    place p l (i + 1) = place p l i + 1 := by
  obtain ⟨hi, rfl⟩ := List.getElem?_eq_some_iff.mp hx
  rw [place, List.take_succ_eq_append_getElem hi, List.countP_append, List.countP_singleton,
    if_pos hp, place]

/-- Entries that are meant have places of their own. -/
lemma place_inj (hx : l[i]? = some x) (hp : p x = true) (hy : l[j]? = some y) (hq : p y = true)
    (h : place p l i = place p l j) : i = j := by
  have hlt : ∀ {i j : ℕ} {x : α}, l[i]? = some x → p x = true → i < j →
      place p l i < place p l j := by
    intro i j x hx hp hij
    calc place p l i < place p l (i + 1) := by rw [place_succ hx hp]; omega
      _ ≤ place p l j := (List.take_sublist_take_left hij).countP_le
  rcases Nat.lt_trichotomy i j with hij | hij | hij
  · exact absurd h (hlt hx hp hij).ne
  · exact hij
  · exact absurd h (hlt hy hq hij).ne'

/-- The entries that are meant, those before one and those behind it. -/
lemma filter_split (hi : i < l.length) :
    l.filter p = (l.take i).filter p ++ ([l[i]].filter p ++ (l.drop (i + 1)).filter p) := by
  rw [← List.filter_append, ← List.filter_append, List.singleton_append, List.getElem_cons_drop,
    List.take_append_drop]

/-- At its place among those that are meant stands the entry itself. -/
lemma getElem?_filter_place (hx : l[i]? = some x) (hp : p x = true) :
    (l.filter p)[place p l i]? = some x := by
  obtain ⟨hi, rfl⟩ := List.getElem?_eq_some_iff.mp hx
  rw [filter_split hi, place, List.countP_eq_length_filter]
  simp [hp]

/-- To replace an entry that is meant is to replace it among those that are. -/
lemma filter_set_of_pos (hx : l[i]? = some x) (hp : p x = true) (hq : p y = true) :
    (l.set i y).filter p = (l.filter p).set (place p l i) y := by
  obtain ⟨hi, rfl⟩ := List.getElem?_eq_some_iff.mp hx
  rw [List.set_eq_take_append_cons_drop, if_pos hi, List.filter_append, List.filter_cons_of_pos hq,
    filter_split hi, place, List.countP_eq_length_filter]
  simp [hp]

/-- To replace an entry that is not meant changes nothing among those that are. -/
lemma filter_set_of_neg (hx : l[i]? = some x) (hp : p x = false) (hq : p y = false) :
    (l.set i y).filter p = l.filter p := by
  obtain ⟨hi, rfl⟩ := List.getElem?_eq_some_iff.mp hx
  rw [List.set_eq_take_append_cons_drop, if_pos hi, List.filter_append,
    List.filter_cons_of_neg (by simp [hq]), filter_split hi]
  simp [hp]

/-- A new entry that is not meant changes nothing among those that are. -/
lemma filter_concat_of_neg (hp : p x = false) : (l ++ [x]).filter p = l.filter p := by
  rw [List.filter_append, List.filter_cons_of_neg (by simp [hp]), List.filter_nil, List.append_nil]

end place

/-! ## What is seen from a document -/

/-- The task is for this document. -/
def Task.isFor (key : Path.Key) (t : Task) : Bool := t.request.fileName.key = key

namespace Service

/-- The call is for this document. -/
def FormatCall.isFor (key : Path.Key) (call : FormatCall) : Bool := call.key = key

/-- The cancellation is for this document. -/
def CancelCall.isFor (key : Path.Key) (call : CancelCall) : Bool := call.key = key

/-- The task that a call at this stage is about to mark or to cancel. -/
def FormatStage.chased? : FormatStage → Option ℕ
  | marking i | recalling i => some i
  | _ => none

/-- The task that a cancellation at this stage is about to mark or to cancel. -/
def CancelStage.chased? : CancelStage → Option ℕ
  | marking i | recalling i => some i
  | _ => none

/-- The same stage where the tasks have other numbers. -/
def FormatStage.renumber (f : ℕ → ℕ) : FormatStage → FormatStage
  | marking i => marking (f i)
  | recalling i => recalling (f i)
  | stage => stage

/-- The same stage where the tasks have other numbers. -/
def CancelStage.renumber (f : ℕ → ℕ) : CancelStage → CancelStage
  | marking i => marking (f i)
  | recalling i => recalling (f i)
  | stage => stage

/-- The same call with other numbers. -/
def FormatCall.renumber (f : ℕ → ℕ) (call : FormatCall) : FormatCall :=
  { call with id := f call.id, task := f call.task, stage := call.stage.renumber f }

/-- The same cancellation with other numbers. -/
def CancelCall.renumber (f : ℕ → ℕ) (call : CancelCall) : CancelCall :=
  { call with stage := call.stage.renumber f }

/-- The number that a task has among those for a document. -/
def number (s : Service) (key : Path.Key) (i : ℕ) : ℕ := place (Task.isFor key) s.tasks i

/-- What is seen of a service from one document. -/
def only (s : Service) (key : Path.Key) : Service where
  settings := s.settings
  style := s.style
  nextId := s.number key s.nextId
  inFlight := (s.entry? key).toList.map fun (id, i) => (key, s.number key id, s.number key i)
  tasks := s.tasks.filter (Task.isFor key)
  formats := (s.formats.filter (FormatCall.isFor key)).map (·.renumber (s.number key))
  cancels := (s.cancels.filter (CancelCall.isFor key)).map (·.renumber (s.number key))

/-- What a step is for one document; none if it is another's. -/
def Action.only? (s : Service) (key : Path.Key) : Action → Option Action
  | format r => if r.fileName.key = key then some (format r) else none
  | cancel p => if p.key = key then some (cancel p) else none
  | stepFormat c =>
    if s.formats[c]?.any (FormatCall.isFor key) then
      some (stepFormat (place (FormatCall.isFor key) s.formats c))
    else none
  | stepCancel c =>
    if s.cancels[c]?.any (CancelCall.isFor key) then
      some (stepCancel (place (CancelCall.isFor key) s.cancels c))
    else none
  | session i e =>
    if s.tasks[i]?.any (Task.isFor key) then some (session (s.number key i) e) else none

variable {s s' : Service} {env : Task.Surroundings} {files files' : FileTree} {a : Action}
  {key : Path.Key} {c i : ℕ} {call : FormatCall} {stage : FormatStage} {cancellation : CancelCall}
  {phase : CancelStage} {t t' : Task}

/-! ## Parts of what is seen -/

lemma isFor_of_key_eq (h : call.key = key) : call.isFor key = true := decide_eq_true h

lemma isFor_of_key_ne (h : call.key ≠ key) : call.isFor key = false := decide_eq_false h

lemma cancelIsFor_of_key_eq (h : cancellation.key = key) : cancellation.isFor key = true :=
  decide_eq_true h

lemma cancelIsFor_of_key_ne (h : cancellation.key ≠ key) : cancellation.isFor key = false :=
  decide_eq_false h

lemma taskIsFor_of_key_eq (h : t.request.fileName.key = key) : t.isFor key = true :=
  decide_eq_true h

lemma taskIsFor_of_key_ne (h : t.request.fileName.key ≠ key) : t.isFor key = false :=
  decide_eq_false h

/-- A call for the document is seen at its place among them, with its task's number there. -/
lemma getElem?_formats_only (hc : s.formats[c]? = some call) (hkey : call.key = key) :
    (s.only key).formats[place (FormatCall.isFor key) s.formats c]? =
      some (call.renumber (s.number key)) := by
  rw [only, List.getElem?_map, getElem?_filter_place hc (isFor_of_key_eq hkey), Option.map_some]

/-- A cancellation for the document is seen at its place among them. -/
lemma getElem?_cancels_only (hc : s.cancels[c]? = some cancellation)
    (hkey : cancellation.key = key) :
    (s.only key).cancels[place (CancelCall.isFor key) s.cancels c]? =
      some (cancellation.renumber (s.number key)) := by
  rw [only, List.getElem?_map, getElem?_filter_place hc (cancelIsFor_of_key_eq hkey),
    Option.map_some]

/-- A task for the document is seen under its number among them. -/
lemma getElem?_tasks_only (ht : s.tasks[i]? = some t) (hkey : t.request.fileName.key = key) :
    (s.only key).tasks[s.number key i]? = some t :=
  getElem?_filter_place ht (taskIsFor_of_key_eq hkey)

/-- Tasks for the document have numbers of their own. -/
lemma number_inj {j : ℕ} (ht : s.tasks[i]? = some t) (hi : t.request.fileName.key = key)
    (ht' : s.tasks[j]? = some t') (hj : t'.request.fileName.key = key)
    (h : s.number key i = s.number key j) : i = j :=
  place_inj ht (taskIsFor_of_key_eq hi) ht' (taskIsFor_of_key_eq hj) h

/-- No other document is in the table that is seen. -/
lemma filter_inFlight_only : (s.only key).inFlight.filter (·.1 ≠ key) = [] := by
  refine List.filter_eq_nil_iff.mpr fun entry hmem => ?_
  obtain ⟨_, -, rfl⟩ := List.mem_map.mp hmem
  simp

/-- The entry of the document is seen with the numbers that its task has there. -/
lemma entry?_only : entry? (s.only key) key =
    (s.entry? key).map fun (id, i) => (s.number key id, s.number key i) := by
  show (((s.entry? key).toList.map fun (id, i) =>
    (key, s.number key id, s.number key i)).find? (·.1 = key)).map (·.2) = _
  cases s.entry? key <;> simp

/-! ## Changes of a service, and what is seen of them -/

/-- The call moves as it is seen to move. -/
lemma only_moveFormat {call₀ : FormatCall} (hc : s.formats[c]? = some call₀)
    (h₀ : call₀.key = key) (hkey : call.key = key) :
    (s.moveFormat c call stage).only key =
      (s.only key).moveFormat (place (FormatCall.isFor key) s.formats c)
        (call.renumber (s.number key)) (stage.renumber (s.number key)) := by
  have hset : (s.formats.set c { call with stage }).filter (FormatCall.isFor key) =
      (s.formats.filter (FormatCall.isFor key)).set (place (FormatCall.isFor key) s.formats c)
        { call with stage } :=
    filter_set_of_pos hc (isFor_of_key_eq h₀) (isFor_of_key_eq (by exact hkey))
  simp only [moveFormat, only, hset, List.map_set]
  rfl

/-- A call for another document moves unseen. -/
lemma only_moveFormat_of_ne {call₀ : FormatCall} (hc : s.formats[c]? = some call₀)
    (h₀ : call₀.key ≠ key) (hkey : call.key ≠ key) :
    (s.moveFormat c call stage).only key = s.only key := by
  have hset : (s.formats.set c { call with stage }).filter (FormatCall.isFor key) =
      s.formats.filter (FormatCall.isFor key) :=
    filter_set_of_neg hc (isFor_of_key_ne h₀) (isFor_of_key_ne (by exact hkey))
  simp only [moveFormat, only, hset]
  rfl

/-- The cancellation moves as it is seen to move. -/
lemma only_moveCancel (hc : s.cancels[c]? = some cancellation) (hkey : cancellation.key = key) :
    (s.moveCancel c cancellation phase).only key =
      (s.only key).moveCancel (place (CancelCall.isFor key) s.cancels c)
        (cancellation.renumber (s.number key)) (phase.renumber (s.number key)) := by
  have hfor := cancelIsFor_of_key_eq hkey
  have hset : (s.cancels.set c { cancellation with stage := phase }).filter (CancelCall.isFor key) =
      (s.cancels.filter (CancelCall.isFor key)).set (place (CancelCall.isFor key) s.cancels c)
        { cancellation with stage := phase } :=
    filter_set_of_pos hc hfor hfor
  simp only [moveCancel, only, hset, List.map_set]
  rfl

/-- A cancellation for another document moves unseen. -/
lemma only_moveCancel_of_ne (hc : s.cancels[c]? = some cancellation)
    (hkey : cancellation.key ≠ key) :
    (s.moveCancel c cancellation phase).only key = s.only key := by
  have hfor := cancelIsFor_of_key_ne hkey
  have hset : (s.cancels.set c { cancellation with stage := phase }).filter (CancelCall.isFor key) =
      s.cancels.filter (CancelCall.isFor key) :=
    filter_set_of_neg hc hfor hfor
  simp only [moveCancel, only, hset]
  rfl

/-- A call to format the document is seen to come in. -/
lemma only_format {r : Request} (hkey : r.fileName.key = key) :
    (s.format r).only key = (s.only key).format r := by
  have hfor : FormatCall.isFor key { request := r } = true := isFor_of_key_eq hkey
  simp only [format, only, List.filter_append, List.filter_cons_of_pos hfor, List.filter_nil,
    List.map_append]
  rfl

/-- A call to format another document comes in unseen. -/
lemma only_format_of_ne {r : Request} (hkey : r.fileName.key ≠ key) :
    (s.format r).only key = s.only key := by
  have hformats : (s.formats ++ [({ request := r } : FormatCall)]).filter (FormatCall.isFor key) =
      s.formats.filter (FormatCall.isFor key) :=
    filter_concat_of_neg (isFor_of_key_ne (by exact hkey))
  simp only [format, only, hformats]
  rfl

/-- A call to cancel the document is seen to come in. -/
lemma only_cancel {p : Path} (hkey : p.key = key) :
    (s.cancel p).only key = (s.only key).cancel p := by
  have hfor : CancelCall.isFor key { key := p.key } = true := cancelIsFor_of_key_eq hkey
  simp only [cancel, only, List.filter_append, List.filter_cons_of_pos hfor, List.filter_nil,
    List.map_append]
  rfl

/-- A call to cancel another document comes in unseen. -/
lemma only_cancel_of_ne {p : Path} (hkey : p.key ≠ key) :
    (s.cancel p).only key = s.only key := by
  have hcancels : (s.cancels ++ [({ key := p.key } : CancelCall)]).filter (CancelCall.isFor key) =
      s.cancels.filter (CancelCall.isFor key) :=
    filter_concat_of_neg (cancelIsFor_of_key_ne (by exact hkey))
  simp only [cancel, only, hcancels]
  rfl

/-- An entry in the table that is seen is the only one. -/
lemma insert_only (id : ℕ) :
    (s.only key).insert key id i = { s.only key with inFlight := [(key, id, i)] } := by
  rw [Service.insert, filter_inFlight_only]

/-- Without the entry the table that is seen is empty. -/
lemma remove_only : (s.only key).remove key = { s.only key with inFlight := [] } := by
  rw [Service.remove, filter_inFlight_only]

/-- The document's entry is put into the table that is seen. -/
lemma only_insert (id : ℕ) : (s.insert key id i).only key =
    (s.only key).insert key (s.number key id) (s.number key i) := by
  rw [insert_only]
  simp only [only, entry?_insert, if_pos]
  rfl

/-- The entry of another document is put into the table unseen. -/
lemma only_insert_of_ne {key' : Path.Key} (hne : key' ≠ key) (id : ℕ) :
    (s.insert key' id i).only key = s.only key := by
  simp only [only, entry?_insert, if_neg hne.symm]
  rfl

/-- The document's entry is taken out of the table that is seen. -/
lemma only_remove : (s.remove key).only key = (s.only key).remove key := by
  rw [remove_only]
  simp only [only, entry?_remove, if_pos]
  rfl

/-- The entry of another document is taken out of the table unseen. -/
lemma only_remove_of_ne {key' : Path.Key} (hne : key' ≠ key) :
    (s.remove key').only key = s.only key := by
  simp only [only, entry?_remove, if_neg hne.symm]
  rfl

/-- Only which tasks are whose counts for their numbers. -/
lemma number_setTask (ht : s.tasks[i]? = some t) (hrequest : t'.request = t.request) :
    number { s with tasks := s.tasks.set i t' } key = s.number key :=
  funext fun _ => place_set ht (by rw [Task.isFor, hrequest, Task.isFor])

/-- A task for the document gets on under its number there. -/
lemma only_setTask (ht : s.tasks[i]? = some t) (hrequest : t'.request = t.request)
    (hkey : t.request.fileName.key = key) :
    only { s with tasks := s.tasks.set i t' } key =
      { s.only key with tasks := (s.only key).tasks.set (s.number key i) t' } := by
  have hset : (s.tasks.set i t').filter (Task.isFor key) =
      (s.tasks.filter (Task.isFor key)).set (s.number key i) t' :=
    filter_set_of_pos ht (taskIsFor_of_key_eq hkey) (taskIsFor_of_key_eq (hrequest ▸ hkey))
  simp only [only, number_setTask ht hrequest, hset]
  rfl

/-- A task for another document gets on unseen. -/
lemma only_setTask_of_ne (ht : s.tasks[i]? = some t) (hrequest : t'.request = t.request)
    (hkey : t.request.fileName.key ≠ key) :
    only { s with tasks := s.tasks.set i t' } key = s.only key := by
  have hset : (s.tasks.set i t').filter (Task.isFor key) = s.tasks.filter (Task.isFor key) :=
    filter_set_of_neg ht (taskIsFor_of_key_ne hkey) (taskIsFor_of_key_ne (hrequest ▸ hkey))
  simp only [only, number_setTask ht hrequest, hset]
  rfl

/-- To do something to a task that is there is to put another in its place. -/
lemma onTask_of_getElem? {f : Task → Task} (ht : s.tasks[i]? = some t) :
    s.onTask i f = { s with tasks := s.tasks.set i (f t) } := by
  simp only [onTask, ht]

/-- What is done to a task for the document is seen to be done under its number there. -/
lemma only_onTask {f : Task → Task} (ht : s.tasks[i]? = some t)
    (hrequest : (f t).request = t.request) (hkey : t.request.fileName.key = key) :
    (s.onTask i f).only key = (s.only key).onTask (s.number key i) f := by
  rw [onTask_of_getElem? ht, only_setTask ht hrequest hkey,
    onTask_of_getElem? (getElem?_tasks_only ht hkey)]

/-- What is done to a task for another document is done unseen. -/
lemma only_onTask_of_ne {f : Task → Task} (ht : s.tasks[i]? = some t)
    (hrequest : (f t).request = t.request) (hkey : t.request.fileName.key ≠ key) :
    (s.onTask i f).only key = s.only key := by
  rw [onTask_of_getElem? ht, only_setTask_of_ne ht hrequest hkey]

/-- What is done to a task leaves it its number, if it leaves it its request. -/
lemma number_onTask {f : Task → Task} (ht : s.tasks[i]? = some t)
    (hrequest : (f t).request = t.request) : (s.onTask i f).number key = s.number key := by
  rw [onTask_of_getElem? ht, number_setTask ht hrequest]

/-- A call acts on a task for its document, and moves on. -/
lemma only_moveFormat_onTask {f : Task → Task} (hc : s.formats[c]? = some call)
    (hkey : call.key = key) (ht : s.tasks[i]? = some t) (hrequest : (f t).request = t.request)
    (htask : t.request.fileName.key = key) :
    ((s.onTask i f).moveFormat c call stage).only key =
      ((s.only key).onTask (s.number key i) f).moveFormat
        (place (FormatCall.isFor key) s.formats c) (call.renumber (s.number key))
        (stage.renumber (s.number key)) := by
  have hc' : (s.onTask i f).formats[c]? = some call := by rw [onTask_formats, hc]
  rw [only_moveFormat hc' hkey hkey, only_onTask ht hrequest htask, number_onTask ht hrequest,
    onTask_formats]

/-- A cancellation acts on a task for its document, and moves on. -/
lemma only_moveCancel_onTask {f : Task → Task} (hc : s.cancels[c]? = some cancellation)
    (hkey : cancellation.key = key) (ht : s.tasks[i]? = some t)
    (hrequest : (f t).request = t.request) (htask : t.request.fileName.key = key) :
    ((s.onTask i f).moveCancel c cancellation phase).only key =
      ((s.only key).onTask (s.number key i) f).moveCancel
        (place (CancelCall.isFor key) s.cancels c) (cancellation.renumber (s.number key))
        (phase.renumber (s.number key)) := by
  have hc' : (s.onTask i f).cancels[c]? = some cancellation := by rw [onTask_cancels, hc]
  rw [only_moveCancel hc' hkey, only_onTask ht hrequest htask, number_onTask ht hrequest,
    onTask_cancels]

/-! ## Whom a call is after -/

/-- Whoever is about to mark or to cancel a task is a call for the same document, and a call that
has just arrived has no number yet. -/
structure Akin (s : Service) : Prop where
  fresh : ∀ {c : ℕ} {call : FormatCall}, s.formats[c]? = some call → call.stage = .arrived →
    call.id = 0 ∧ call.task = 0
  format : ∀ {c i : ℕ} {call : FormatCall}, s.formats[c]? = some call →
    call.stage.chased? = some i → ∃ t, s.tasks[i]? = some t ∧ t.request.fileName.key = call.key
  cancel : ∀ {c i : ℕ} {cancellation : CancelCall}, s.cancels[c]? = some cancellation →
    cancellation.stage.chased? = some i →
      ∃ t, s.tasks[i]? = some t ∧ t.request.fileName.key = cancellation.key

/-- In a new service nobody is after anybody. -/
lemma akin_new (settings : Settings) (style : Style) : Akin { settings, style } where
  fresh hc := by simp at hc
  format hc := by simp at hc
  cancel hc := by simp at hc

/-- The task of an entry is for the document of the entry. -/
lemma Coherent.task_of_entry (h : s.Coherent) {id : ℕ} (he : s.entry? key = some (id, i)) :
    id = i ∧ ∃ t, s.tasks[i]? = some t ∧ t.request.fileName.key = key := by
  obtain ⟨-, c, call, hc, hs, rfl, rfl, rfl⟩ := h.listed he
  obtain ⟨hid, t, ht, hrequest, -⟩ := h.known hc hs.ne_arrived
  exact ⟨hid, t, ht, by rw [hrequest, FormatCall.key]⟩

/-- The task of a call is for the document of the call. -/
lemma Coherent.task_of_call (h : s.Coherent) (hc : s.formats[c]? = some call)
    (hs : call.stage ≠ .arrived) (ht : s.tasks[call.task]? = some t) :
    t.request.fileName.key = call.key := by
  obtain ⟨-, t', ht', hsame, -⟩ := h.known hc hs
  obtain rfl := Option.some.inj (ht.symm.trans ht')
  rw [hsame, FormatCall.key]

/-- A task stays what it is for. -/
lemma exists_task_next (hm : Moves s env files a s')
    (h : ∃ t, s.tasks[i]? = some t ∧ t.request.fileName.key = key) :
    ∃ t, s'.tasks[i]? = some t ∧ t.request.fileName.key = key := by
  obtain ⟨t, ht, hkey⟩ := h
  obtain ⟨t', ht', hmoves, -⟩ := task_persists hm ht
  exact ⟨t', ht', by rw [Task.request_moves hmoves, hkey]⟩

/-- Behind a step, a call is after a task for its own document only. -/
lemma Akin.format_next (h : s.Akin) (hc : s.Coherent) (hm : Moves s env files a s') {c i : ℕ}
    {call' : FormatCall} (hcall' : s'.formats[c]? = some call')
    (hi : call'.stage.chased? = some i) :
    ∃ t, s'.tasks[i]? = some t ∧ t.request.fileName.key = call'.key := by
  rcases format_before hm hcall' with hcall | harr | ⟨call, hcall, hadv⟩
  · exact exists_task_next hm (h.format hcall hi)
  · rw [harr] at hi
    cases hi
  · cases hadv with
    | insert =>
      cases he : s.entry? call.key with
      | none =>
        rw [he] at hi
        cases hi
      | some entry =>
        rw [he] at hi
        cases hi
        exact exists_task_next hm (hc.task_of_entry he).2
    | mark hs =>
      cases hi
      have hchased : call.stage.chased? = some i := by rw [hs]; rfl
      obtain ⟨t, ht, hkey⟩ := h.format hcall hchased
      exact exists_task_next hm ⟨t, ht, hkey⟩
    | _ => cases hi

/-- Behind a step, a cancellation is after a task for its own document only. -/
lemma Akin.cancel_next (h : s.Akin) (hc : s.Coherent) (hm : Moves s env files a s') {c i : ℕ}
    {call' : CancelCall} (hcall' : s'.cancels[c]? = some call')
    (hi : call'.stage.chased? = some i) :
    ∃ t, s'.tasks[i]? = some t ∧ t.request.fileName.key = call'.key := by
  rcases cancel_before hm hcall' with hcall | harr | ⟨call, hcall, hadv⟩
  · exact exists_task_next hm (h.cancel hcall hi)
  · rw [harr] at hi
    cases hi
  · cases hadv with
    | withdraw _ he =>
      cases hi
      exact exists_task_next hm (hc.task_of_entry he).2
    | mark hs =>
      cases hi
      have hchased : call.stage.chased? = some i := by rw [hs]; rfl
      obtain ⟨t, ht, hkey⟩ := h.cancel hcall hchased
      exact exists_task_next hm ⟨t, ht, hkey⟩
    | _ => cases hi

/-- Behind a step, a call that has just arrived has no number. -/
lemma Akin.fresh_next (h : s.Akin) (hm : Moves s env files a s') {c : ℕ} {call' : FormatCall}
    (hcall : s'.formats[c]? = some call') (hs : call'.stage = .arrived) :
    call'.id = 0 ∧ call'.task = 0 := by
  cases formatMoves hm c with
  | stays hsame => exact h.fresh (hsame.symm.trans hcall) hs
  | arrives r _ h' =>
    obtain rfl := Option.some.inj (h'.symm.trans hcall)
    exact ⟨rfl, rfl⟩
  | advances _ _ h' hadv =>
    obtain rfl := Option.some.inj (h'.symm.trans hcall)
    cases hadv with
    | insert => exact absurd hs (ofDisplaced_inFlight _).ne_arrived
    | _ => cases hs

/-- No step has anybody go after a task for another document. -/
lemma Akin.next (h : s.Akin) (hc : s.Coherent) (hm : Moves s env files a s') : s'.Akin where
  fresh := h.fresh_next hm
  format := h.format_next hc hm
  cancel := h.cancel_next hc hm

/-! ## A new task -/

/-- A stage with another number depends on the number of the task that it is after. -/
lemma FormatStage.renumber_congr {f g : ℕ → ℕ} (h : ∀ i, stage.chased? = some i → f i = g i) :
    stage.renumber f = stage.renumber g := by
  cases stage with
  | marking i | recalling i => simp only [renumber, h i rfl]
  | _ => rfl

/-- A cancellation's stage with another number depends on the number of the task that it is
after. -/
lemma CancelStage.renumber_congr {f g : ℕ → ℕ} (h : ∀ i, phase.chased? = some i → f i = g i) :
    phase.renumber f = phase.renumber g := by
  cases phase with
  | marking i | recalling i => simp only [renumber, h i rfl]
  | _ => rfl

/-- The numbers of the tasks before stay as they are. -/
lemma number_addTask (hi : i ≤ s.tasks.length) :
    number { s with nextId := s.nextId + 1, tasks := s.tasks ++ [t] } key i = s.number key i :=
  place_append hi _

/-- A new task does not change the numbers that the calls know. -/
lemma map_formats_addTask (h : s.Coherent) (ha : s.Akin) :
    (s.formats.filter (FormatCall.isFor key)).map
        (·.renumber (number { s with nextId := s.nextId + 1, tasks := s.tasks ++ [t] } key)) =
      (s.formats.filter (FormatCall.isFor key)).map (·.renumber (s.number key)) := by
  refine List.map_congr_left fun call hmem => ?_
  obtain ⟨c, hc⟩ := List.mem_iff_getElem?.mp (List.mem_of_mem_filter hmem)
  have hle : call.id ≤ s.tasks.length ∧ call.task ≤ s.tasks.length := by
    by_cases hs : call.stage = .arrived
    · have := ha.fresh hc hs
      omega
    · obtain ⟨hid, t, ht, -⟩ := h.known hc hs
      have := (List.getElem?_eq_some_iff.mp ht).1
      omega
  have hstage : ∀ i, call.stage.chased? = some i →
      number { s with nextId := s.nextId + 1, tasks := s.tasks ++ [t] } key i = s.number key i := by
    intro i hi
    obtain ⟨t, ht, -⟩ := ha.format hc hi
    exact number_addTask (List.getElem?_eq_some_iff.mp ht).1.le
  rw [FormatCall.renumber, number_addTask hle.1, number_addTask hle.2,
    FormatStage.renumber_congr hstage, FormatCall.renumber]

/-- A new task does not change the numbers that the cancellations know. -/
lemma map_cancels_addTask (ha : s.Akin) :
    (s.cancels.filter (CancelCall.isFor key)).map
        (·.renumber (number { s with nextId := s.nextId + 1, tasks := s.tasks ++ [t] } key)) =
      (s.cancels.filter (CancelCall.isFor key)).map (·.renumber (s.number key)) := by
  refine List.map_congr_left fun call hmem => ?_
  obtain ⟨c, hc⟩ := List.mem_iff_getElem?.mp (List.mem_of_mem_filter hmem)
  have hstage : ∀ i, call.stage.chased? = some i →
      number { s with nextId := s.nextId + 1, tasks := s.tasks ++ [t] } key i = s.number key i := by
    intro i hi
    obtain ⟨t, ht, -⟩ := ha.cancel hc hi
    exact number_addTask (List.getElem?_eq_some_iff.mp ht).1.le
  rw [CancelCall.renumber, CancelStage.renumber_congr hstage, CancelCall.renumber]

/-- A new task does not change the numbers in the table. -/
lemma map_entry_addTask (h : s.Coherent) :
    ((s.entry? key).toList.map fun (id, i) =>
      (key, number { s with nextId := s.nextId + 1, tasks := s.tasks ++ [t] } key id,
        number { s with nextId := s.nextId + 1, tasks := s.tasks ++ [t] } key i)) =
      (s.entry? key).toList.map fun (id, i) => (key, s.number key id, s.number key i) := by
  cases he : s.entry? key with
  | none => rfl
  | some entry =>
    obtain ⟨hid, t, ht, -⟩ := h.task_of_entry he
    have hlt := (List.getElem?_eq_some_iff.mp ht).1
    simp only [Option.toList_some, List.map_cons, List.map_nil]
    rw [number_addTask (by omega), number_addTask (by omega)]

/-- A new task for the document is seen to be the last one. -/
lemma only_addTask (h : s.Coherent) (ha : s.Akin) (hkey : t.request.fileName.key = key) :
    only { s with nextId := s.nextId + 1, tasks := s.tasks ++ [t] } key =
      { s.only key with
        nextId := (s.only key).nextId + 1
        tasks := (s.only key).tasks ++ [t] } := by
  have hfor := taskIsFor_of_key_eq hkey
  have hnext : number { s with nextId := s.nextId + 1, tasks := s.tasks ++ [t] } key
      (s.nextId + 1) = s.number key s.nextId + 1 := by
    rw [h.counted, number, place_concat, if_pos hfor, number]
  have htasks : (s.tasks ++ [t]).filter (Task.isFor key) =
      s.tasks.filter (Task.isFor key) ++ [t] := by
    rw [List.filter_append, List.filter_cons_of_pos hfor, List.filter_nil]
  simp only [only, hnext, htasks, map_formats_addTask h ha, map_cancels_addTask ha]
  rw [← map_entry_addTask h]
  rfl

/-- A new task for another document is not seen. -/
lemma only_addTask_of_ne (h : s.Coherent) (ha : s.Akin)
    (hkey : t.request.fileName.key ≠ key) :
    only { s with nextId := s.nextId + 1, tasks := s.tasks ++ [t] } key = s.only key := by
  have hfor := taskIsFor_of_key_ne hkey
  have hnext : number { s with nextId := s.nextId + 1, tasks := s.tasks ++ [t] } key
      (s.nextId + 1) = s.number key s.nextId := by
    rw [h.counted, number, place_concat, if_neg (by simp [hfor]), number, Nat.add_zero]
  have htasks : (s.tasks ++ [t]).filter (Task.isFor key) = s.tasks.filter (Task.isFor key) :=
    filter_concat_of_neg hfor
  simp only [only, hnext, htasks, map_formats_addTask h ha, map_cancels_addTask ha]
  rw [← map_entry_addTask h]
  rfl

end Service

end SourceFormat.Formatting
