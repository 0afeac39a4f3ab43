import Mathlib
import SourceFormat.Toml.Document

/-!
# No key is written twice

Whatever a document writes, and in whatever order, no table of it has one key twice: a document that
tried is none.  Every change to the tables keeps it so (`Entries.Distinct.assign`, `.openTable`,
`.openElement`, `.inside`), hence every value that is read is so at every depth
(`distinct_of_value?`), and so is the whole document (`distinct_of_parse?`).
-/

namespace SourceFormat.Toml

/-- No table inside a value has one key twice. -/
inductive Item.Distinct : Item → Prop where
  | scalar {span : Span} {s : Scalar} : Distinct (.scalar span s)
  | array {span : Span} {ofTables : Bool} {items : List Item} (members : ∀ i ∈ items, Distinct i) :
    Distinct (.array span ofTables items)
  | table {span : Span} {origin : Origin} {es : List (Key × Item)}
    (keys : (es.map (·.1.text)).Nodup) (members : ∀ e ∈ es, Distinct e.2) :
    Distinct (.table span origin es)

/-- No key is there twice, neither in a table nor in a table inside it. -/
structure Entries.Distinct (es : Entries) : Prop where
  keys : (es.map (·.1.text)).Nodup
  members : ∀ e ∈ es, e.2.Distinct

namespace Entries

/-- There is no value under a key that no entry has. -/
lemma get?_eq_none_iff {es : Entries} {key : String} :
    es.get? key = none ↔ ∀ e ∈ es, e.1.text ≠ key := by
  simp [get?]

/-- A value under a key is that of an entry. -/
lemma exists_mem_of_get? {es : Entries} {key : String} {item : Item}
    (h : es.get? key = some item) : ∃ k, (k, item) ∈ es ∧ k.text = key := by
  obtain ⟨e, he, rfl⟩ := Option.map_eq_some_iff.mp h
  exact ⟨e.1, List.mem_of_find?_eq_some he, by simpa using List.find?_some he⟩

/-- Where no key is there twice, every entry is found by its key. -/
lemma get?_of_mem {es : Entries} (hkeys : (es.map (·.1.text)).Nodup) {e : Key × Item}
    (he : e ∈ es) : es.get? e.1.text = some e.2 := by
  cases hget : es.get? e.1.text with
  | none => exact absurd rfl (get?_eq_none_iff.mp hget e he)
  | some item =>
    obtain ⟨k, hk, htext⟩ := exists_mem_of_get? hget
    obtain rfl := List.inj_on_of_nodup_map hkeys hk he htext
    rfl

/-- The order of the keys is of no account. -/
lemma get?_eq_of_perm {es es' : Entries} (hperm : es.Perm es')
    (hkeys : (es.map (·.1.text)).Nodup) (key : String) : es.get? key = es'.get? key := by
  have hkeys' : (es'.map (·.1.text)).Nodup := (hperm.map _).nodup_iff.mp hkeys
  cases hget : es.get? key with
  | none =>
    symm
    rw [get?_eq_none_iff] at hget ⊢
    exact fun e he => hget e (hperm.mem_iff.mpr he)
  | some item =>
    obtain ⟨k, hk, rfl⟩ := exists_mem_of_get? hget
    exact (get?_of_mem hkeys' (hperm.mem_iff.mp hk)).symm

namespace Distinct

variable {es : Entries}

/-- A table of distinct keys is a value without a key twice. -/
lemma table (h : es.Distinct) (span : Span) (origin : Origin) :
    Item.Distinct (.table span origin es) :=
  .table h.keys h.members

/-- A value without a key twice is a table of distinct keys, if it is one. -/
lemma ofTable {span : Span} {origin : Origin} (h : Item.Distinct (.table span origin es)) :
    es.Distinct := by
  obtain _ | _ | ⟨hkeys, hmembers⟩ := h
  exact ⟨hkeys, hmembers⟩

/-- An empty table has no key twice. -/
lemma nil : Distinct [] := ⟨.nil, nofun⟩

/-- What follows an entry has no key twice if all have not. -/
lemma tail {e : Key × Item} (h : Distinct (e :: es)) : es.Distinct where
  keys := (List.nodup_cons.mp h.keys).2
  members := (List.forall_mem_cons.mp h.members).2

/-- The key of an entry does not follow it. -/
lemma get?_head {e : Key × Item} (h : Distinct (e :: es)) : es.get? e.1.text = none := by
  rw [get?_eq_none_iff]
  intro e' he' heq
  have hhead : e.1.text ∉ es.map (·.1.text) := (List.nodup_cons.mp h.keys).1
  exact hhead (List.mem_map.mpr ⟨e', he', heq⟩)

/-- The order of the entries does not matter. -/
lemma perm {es' : Entries} (h : es.Distinct) (hperm : es.Perm es') : es'.Distinct where
  keys := (hperm.map _).nodup_iff.mp h.keys
  members := fun e he => h.members e (hperm.mem_iff.mpr he)

/-- No value in a table of distinct keys has a key twice. -/
lemma get? (h : es.Distinct) {key : String} {item : Item} (hget : es.get? key = some item) :
    item.Distinct := by
  obtain ⟨k, hk, -⟩ := exists_mem_of_get? hget
  exact h.members _ hk

/-- A key that is new. -/
lemma concat (h : es.Distinct) {key : Key} {item : Item} (hnew : es.get? key.text = none)
    (hitem : item.Distinct) : Distinct (es ++ [(key, item)]) where
  keys := by
    rw [List.map_append, List.nodup_append]
    refine ⟨h.keys, by simp, ?_⟩
    intro text htext text' htext'
    obtain ⟨e, he, rfl⟩ := List.mem_map.mp htext
    rw [List.mem_singleton.mp htext']
    exact get?_eq_none_iff.mp hnew e he
  members := by
    intro e he
    rcases List.mem_append.mp he with he | he
    · exact h.members e he
    · rw [List.mem_singleton.mp he]
      exact hitem

/-- Other values for the same keys. -/
lemma map (h : es.Distinct) {f : Key × Item → Key × Item}
    (hkey : ∀ e ∈ es, (f e).1.text = e.1.text) (hitem : ∀ e ∈ es, (f e).2.Distinct) :
    Distinct (es.map f) where
  keys := by
    rw [List.map_map, List.map_congr_left (g := (·.1.text)) hkey]
    exact h.keys
  members := by
    intro e he
    obtain ⟨written, hwritten, rfl⟩ := List.mem_map.mp he
    exact hitem written hwritten

/-- Another value under a key that is there keeps the keys apart. -/
lemma modify (h : es.Distinct) {key : String} {item : Item} (hitem : item.Distinct) :
    Distinct (es.modify key item) := by
  apply h.map
  · intro e _
    split <;> rfl
  · intro e he
    split
    · exact hitem
    · exact h.members e he

/-- Another value keeps the keys apart, though its key is written anew. -/
lemma replace (h : es.Distinct) {key : Key} {item : Item} (hitem : item.Distinct) :
    Distinct (es.replace key item) := by
  apply h.map
  · intro e _
    split
    next heq => exact heq.symm
    next => rfl
  · intro e he
    split
    · exact hitem
    · exact h.members e he

end Distinct

/-- A change to a table that keeps its keys apart. -/
def KeepsDistinct (work : Entries → Option Entries) : Prop :=
  ∀ es es' : Entries, es.Distinct → work es = some es' → es'.Distinct

/-- What is done inside a value is done to a table. -/
lemma distinct_within {found item : Item} {work : Entries → Option Entries}
    (hwork : KeepsDistinct work) (hfound : found.Distinct) (h : within found work = some item) :
    item.Distinct := by
  unfold within at h
  split at h
  next span origin es =>
    split at h
    next => cases h
    next =>
      obtain ⟨es', hes', rfl⟩ := Option.map_eq_some_iff.mp h
      exact (hwork es es' (.ofTable hfound) hes').table span origin
  next span items =>
    split at h
    next tspan origin es before hreverse =>
      obtain ⟨es', hes', rfl⟩ := Option.map_eq_some_iff.mp h
      obtain _ | ⟨hmembers⟩ := hfound
      have hlast : ∀ i ∈ .table tspan origin es :: before, i.Distinct := by
        intro i hi
        exact hmembers i (List.mem_reverse.mp (hreverse ▸ hi))
      obtain ⟨htable, hbefore⟩ := List.forall_mem_cons.mp hlast
      have hes' : es'.Distinct := hwork es es' (.ofTable htable) hes'
      refine .array fun i hi => ?_
      rcases List.mem_cons.mp (List.mem_reverse.mp hi) with rfl | hi
      · exact hes'.table tspan origin
      · exact hbefore i hi
    next => cases h
  next => cases h

/-- A change inside the value of a key. -/
lemma KeepsDistinct.modify_within {work : Entries → Option Entries} (hwork : KeepsDistinct work)
    {es es' : Entries} (hes : es.Distinct) {key : String} {found : Item}
    (hfound : es.get? key = some found) (h : (within found work).map (es.modify key) = some es') :
    es'.Distinct := by
  obtain ⟨item, hitem, rfl⟩ := Option.map_eq_some_iff.mp h
  exact hes.modify (distinct_within hwork (hes.get? hfound) hitem)

/-- An assignment keeps the keys apart. -/
lemma KeepsDistinct.assign {item : Item} (hitem : item.Distinct) (path : List Key) (last : Key) :
    KeepsDistinct (assign path last item) := by
  induction path with
  | nil =>
    intro es es' hes h
    rw [Entries.assign] at h
    split at h
    next => cases h
    next hnew =>
      obtain rfl := Option.some.inj h
      exact hes.concat (by simpa using hnew) hitem
  | cons k path ih =>
    intro es es' hes h
    rw [Entries.assign] at h
    split at h
    next hnew =>
      obtain ⟨inner, hinner, rfl⟩ := Option.map_eq_some_iff.mp h
      exact hes.concat hnew ((ih [] inner .nil hinner).table _ _)
    next span origin inner hfound =>
      split at h
      next =>
        obtain ⟨inner', hinner', rfl⟩ := Option.map_eq_some_iff.mp h
        exact hes.modify ((ih inner inner' (.ofTable (hes.get? hfound)) hinner').table _ _)
      next => cases h
    next found _ hfound =>
      split at h
      next => cases h
      next => exact ih.modify_within hes hfound h

/-- A header keeps the keys apart. -/
lemma KeepsDistinct.openTable (span : Span) (path : List Key) (last : Key) :
    KeepsDistinct (openTable span path last) := by
  induction path with
  | nil =>
    intro es es' hes h
    rw [Entries.openTable] at h
    split at h
    next hnew =>
      obtain rfl := Option.some.inj h
      exact hes.concat hnew (Distinct.nil.table _ _)
    next inner hfound =>
      obtain rfl := Option.some.inj h
      exact hes.replace ((Distinct.ofTable (hes.get? hfound)).table _ _)
    next => cases h
  | cons k path ih =>
    intro es es' hes h
    rw [Entries.openTable] at h
    split at h
    next hnew =>
      obtain ⟨inner, hinner, rfl⟩ := Option.map_eq_some_iff.mp h
      exact hes.concat hnew ((ih [] inner .nil hinner).table _ _)
    next found hfound => exact ih.modify_within hes hfound h

/-- A header of an array element keeps the keys apart. -/
lemma KeepsDistinct.openElement (span : Span) (path : List Key) (last : Key) :
    KeepsDistinct (openElement span path last) := by
  have hempty : Item.Distinct (.table span .header []) := Distinct.nil.table _ _
  induction path with
  | nil =>
    intro es es' hes h
    rw [Entries.openElement] at h
    split at h
    next hnew =>
      obtain rfl := Option.some.inj h
      exact hes.concat hnew (.array fun i hi => List.mem_singleton.mp hi ▸ hempty)
    next aspan items hfound =>
      obtain rfl := Option.some.inj h
      obtain _ | ⟨hmembers⟩ := hes.get? hfound
      refine hes.modify (.array fun i hi => ?_)
      rcases List.mem_append.mp hi with hi | hi
      · exact hmembers i hi
      · exact List.mem_singleton.mp hi ▸ hempty
    next => cases h
  | cons k path ih =>
    intro es es' hes h
    rw [Entries.openElement] at h
    split at h
    next hnew =>
      obtain ⟨inner, hinner, rfl⟩ := Option.map_eq_some_iff.mp h
      exact hes.concat hnew ((ih [] inner .nil hinner).table _ _)
    next found hfound => exact ih.modify_within hes hfound h

/-- What keeps the keys apart in a table under a header keeps all of them apart. -/
lemma KeepsDistinct.inside {work : Entries → Option Entries} (hwork : KeepsDistinct work)
    (header : List Key) : KeepsDistinct (inside header work) := by
  induction header with
  | nil => exact hwork
  | cons k path ih =>
    intro es es' hes h
    rw [Entries.inside] at h
    split at h
    next => cases h
    next found hfound => exact ih.modify_within hes hfound h

end Entries

/-! ## Reading -/

/-- A reader of values whose keys are apart. -/
def ReadsDistinct (item : Reader Item) : Prop :=
  ∀ p i rest, item p = some (i, rest) → i.Distinct

variable {item : Reader Item}

/-- No member of an array has a key twice if what is read of one has not. -/
lemma distinct_of_arrayItems (hitem : ReadsDistinct item) (fuel : ℕ) {found items : List Item}
    {p rest : Place} (hfound : ∀ i ∈ found, i.Distinct)
    (h : arrayItems item fuel found p = some (items, rest)) : ∀ i ∈ items, i.Distinct := by
  induction fuel generalizing found p with
  | zero => cases h
  | succ fuel ih =>
    rw [arrayItems] at h
    split at h
    next =>
      obtain ⟨rfl, -⟩ := Prod.mk.inj (Option.some.inj h)
      simpa using hfound
    next =>
      split at h
      next => cases h
      next i behind hi =>
        have hfound' : ∀ i' ∈ i :: found, i'.Distinct :=
          List.forall_mem_cons.mpr ⟨hitem _ i behind hi, hfound⟩
        split at h
        next => exact ih hfound' h
        next =>
          obtain ⟨rfl, -⟩ := Prod.mk.inj (Option.some.inj h)
          intro i' hi'
          exact hfound' i' (List.mem_reverse.mp hi')
        next => cases h

/-- The value of an assignment is one that `item` has read. -/
lemma distinct_of_assignment? (hitem : ReadsDistinct item) {path : List Key} {last : Key} {i : Item}
    {p rest : Place} (h : assignment? item p = some ((path, last, i), rest)) : i.Distinct := by
  rw [assignment?] at h
  split at h
  next behind _ =>
    obtain ⟨⟨read, after⟩, hread, heq⟩ := Option.map_eq_some_iff.mp h
    obtain ⟨⟨-, -, rfl⟩, -⟩ := by simpa using heq
    exact hitem _ read after hread
  next => cases h

/-- No table in braces has a key twice. -/
lemma distinct_of_inlineEntries (hitem : ReadsDistinct item) (fuel : ℕ) {es es' : Entries}
    {p rest : Place} (hes : es.Distinct) (h : inlineEntries item fuel es p = some (es', rest)) :
    es'.Distinct := by
  induction fuel generalizing es p with
  | zero => cases h
  | succ fuel ih =>
    rw [inlineEntries] at h
    split at h
    next =>
      obtain ⟨rfl, -⟩ := Prod.mk.inj (Option.some.inj h)
      exact hes
    next =>
      split at h
      next => cases h
      next path last i behind hassignment =>
        split at h
        next => cases h
        next written hwritten =>
          have hwritten : written.Distinct :=
            Entries.KeepsDistinct.assign (distinct_of_assignment? hitem hassignment) path last
              es written hes hwritten
          split at h
          next => exact ih hwritten h
          next =>
            obtain ⟨rfl, -⟩ := Prod.mk.inj (Option.some.inj h)
            exact hwritten
          next => cases h

/-- A value that is read has no key twice, at any depth. -/
lemma distinct_of_value? (depth : ℕ) : ReadsDistinct (value? depth) := by
  -- The members of an array or a table are read with less depth left.
  induction depth using Nat.strong_induction_on with
  | _ depth ih =>
    intro p i rest h
    unfold value? at h
    split at h
    next => cases h
    next =>
      split at h
      next => cases h
      next depth =>
        obtain ⟨⟨items, behind⟩, hitems, heq⟩ := Option.map_eq_some_iff.mp h
        obtain ⟨rfl, -⟩ := Prod.mk.inj heq
        exact .array (distinct_of_arrayItems (ih depth depth.lt_succ_self) _ (by simp) hitems)
    next =>
      split at h
      next => cases h
      next depth =>
        obtain ⟨⟨es, behind⟩, hes, heq⟩ := Option.map_eq_some_iff.mp h
        obtain ⟨rfl, -⟩ := Prod.mk.inj heq
        exact (distinct_of_inlineEntries (ih depth depth.lt_succ_self) _ .nil hes).table _ _
    next =>
      split at h <;>
        · obtain ⟨_, -, heq⟩ := Option.map_eq_some_iff.mp h
          obtain ⟨rfl, -⟩ := Prod.mk.inj heq
          exact .scalar

/-- A line keeps the keys apart. -/
lemma distinct_of_statement? {s s' : Progress} {p rest : Place} (hs : s.root.Distinct)
    (h : statement? s p = some (s', rest)) : s'.root.Distinct := by
  unfold statement? at h
  split at h
  next =>
    obtain ⟨⟨⟨element, path, last⟩, behind⟩, -, h⟩ := Option.bind_eq_some_iff.mp h
    dsimp only at h
    split at h
    next =>
      obtain ⟨root, hroot, h⟩ := Option.bind_eq_some_iff.mp h
      obtain ⟨rfl, -⟩ := Prod.mk.inj (Option.some.inj h)
      exact Entries.KeepsDistinct.openElement _ path last _ _ hs hroot
    next =>
      obtain ⟨root, hroot, h⟩ := Option.bind_eq_some_iff.mp h
      obtain ⟨rfl, -⟩ := Prod.mk.inj (Option.some.inj h)
      exact Entries.KeepsDistinct.openTable _ path last _ _ hs hroot
  next =>
    obtain ⟨⟨⟨path, last, i⟩, behind⟩, hassignment, h⟩ := Option.bind_eq_some_iff.mp h
    obtain ⟨root, hroot, h⟩ := Option.bind_eq_some_iff.mp h
    obtain ⟨rfl, -⟩ := Prod.mk.inj (Option.some.inj h)
    have hi : i.Distinct := distinct_of_assignment? (distinct_of_value? maxDepth) hassignment
    exact (Entries.KeepsDistinct.assign hi path last).inside s.header _ _ hs hroot

/-- Whatever the statements write, no key is there twice. -/
lemma distinct_of_statements (fuel : ℕ) {s : Progress} {p : Place} {es : Entries}
    (hs : s.root.Distinct) (h : statements fuel s p = some es) : es.Distinct := by
  induction fuel generalizing s p with
  | zero => cases h
  | succ fuel ih =>
    rw [statements] at h
    dsimp only at h
    split at h
    next =>
      obtain rfl := Option.some.inj h
      exact hs
    next =>
      split at h
      next => exact ih hs h
      next =>
        obtain ⟨⟨s', behind⟩, hs', h⟩ := Option.bind_eq_some_iff.mp h
        obtain ⟨after, -, h⟩ := Option.bind_eq_some_iff.mp h
        exact ih (distinct_of_statement? hs hs') h

/-- A document has no key twice, at any depth. -/
theorem distinct_of_parse? {document : String} {es : Entries} (h : parse? document = some es) :
    es.Distinct := by
  rw [parse?] at h
  exact distinct_of_statements _ .nil h

end SourceFormat.Toml
