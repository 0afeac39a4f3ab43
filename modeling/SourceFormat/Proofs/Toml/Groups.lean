import Mathlib
import SourceFormat.Proofs.Toml.Distinct
import SourceFormat.Proofs.Toml.SameValues
import SourceFormat.Toml.Reading

/-!
# What it means to read a group

A field of a group means a part of the group; some values fit it, and say what that part is
(`FieldMeaning`).  A value fits a group if it is a table whose keys all are fields, or an array, and
what it holds fits (`GroupFits`).  It is read as the group whose parts are what is said of them, or
the stock parts where nothing is said (`ReadsAs`).

The reader of a group goes through the keys in an order of its own and stops at the first complaint.
It succeeds on exactly the values that fit the group (`groupFits_iff`), and with the group that they
are read as (`readGroup_iff`).  What a value says has no order and knows nothing of the way it was
written, and so it is with the group that is read (`ReadsAs.sameValues`).
-/

namespace SourceFormat.Toml

variable {σ : Type}

/-! ## Meanings -/

/-- What a field of a group means: the part of the group that it is about, which values fit it and
what they say of that part, and what the part is if no value says anything. -/
structure FieldMeaning (σ : Type) where
  name : String
  {Part : Type}
  part : σ → Part
  Fits : Item → Prop
  Says : Item → Part → Prop
  stock : Part

/-- A group has the part that a value says, or another part if there is no value. -/
def FieldMeaning.Holds (m : FieldMeaning σ) (otherwise : m.Part) (group : σ) : Option Item → Prop
  | some item => m.Says item (m.part group)
  | none => m.part group = otherwise

/-- A table fits a group: it has no other keys than the fields, and their values fit. -/
structure TableFits (ms : List (FieldMeaning σ)) (es : Entries) : Prop where
  known : ∀ e ∈ es, e.1.text ∈ ms.map (·.name)
  fits : ∀ m ∈ ms, ∀ item, es.get? m.name = some item → m.Fits item

/-- A value fits a group.  The members of an array are the values of the fields in their order; of
members beyond the last field nothing is asked. -/
inductive GroupFits (ms : List (FieldMeaning σ)) : Item → Prop where
  | table {span : Span} {origin : Origin} {es : Entries} (h : TableFits ms es) :
    GroupFits ms (.table span origin es)
  | array {span : Span} {ofTables : Bool} {items : List Item}
    (h : ∀ (n : ℕ) m item, ms[n]? = some m → items[n]? = some item → m.Fits item) :
    GroupFits ms (.array span ofTables items)

/-- A table is read as a group: it has no other keys than the fields, and the group has what their
values say, or the stock part. -/
structure TableReadsAs (ms : List (FieldMeaning σ)) (es : Entries) (group : σ) : Prop where
  known : ∀ e ∈ es, e.1.text ∈ ms.map (·.name)
  holds : ∀ m ∈ ms, m.Holds m.stock group (es.get? m.name)

/-- A value is read as a group. -/
inductive ReadsAs (ms : List (FieldMeaning σ)) : Item → σ → Prop where
  | table {span : Span} {origin : Origin} {es : Entries} {group : σ}
    (h : TableReadsAs ms es group) : ReadsAs ms (.table span origin es) group
  | array {span : Span} {ofTables : Bool} {items : List Item} {group : σ}
    (h : ∀ (n : ℕ) m, ms[n]? = some m → m.Holds m.stock group items[n]?) :
    ReadsAs ms (.array span ofTables items) group

/-- The reader of a field takes exactly the values that say something of its part, which are those
that fit, and puts there what they say.  It need not be right about a value that has a key twice. -/
structure Means (f : GroupField σ) (m : FieldMeaning σ) : Prop where
  name : f.name = m.name
  fits : ∀ {item}, item.Distinct → (m.Fits item ↔ ∃ v, m.Says item v)
  sound : ∀ {item group group'}, item.Distinct → f.read item group = .ok group' →
    m.Says item (m.part group')
  complete : ∀ {item v} group, item.Distinct → m.Says item v →
    ∃ group', f.read item group = .ok group' ∧ m.part group' = v

/-- Fields and what they mean, in the same order, and the stock group.  A field changes no part but
its own, and a group is no more than its parts. -/
structure Explains (ms : List (FieldMeaning σ)) (fields : List (GroupField σ)) (stock : σ) :
    Prop where
  stock : ∀ m ∈ ms, m.part stock = m.stock
  names : (ms.map (·.name)).Nodup
  means : List.Forall₂ Means fields ms
  frame : ∀ f ∈ fields, ∀ {item group group'}, f.read item group = .ok group' →
    ∀ m ∈ ms, m.name ≠ f.name → m.part group' = m.part group
  ext : ∀ {group group'}, (∀ m ∈ ms, m.part group = m.part group') → group = group'

/-- A result that is mapped is a success if it was one before. -/
lemma map_eq_ok_iff {α β : Type} {x : Except Diagnostic α} {f : α → β} {b : β} :
    x.map f = .ok b ↔ ∃ a, x = .ok a ∧ f a = b := by
  cases x with
  | error d => exact iff_of_false nofun fun ⟨_, hok, _⟩ => nomatch hok
  | ok a => simp [Except.map]

/-- A field that reads a value and puts it. -/
lemma Means.of_read {α : Type} {name : String} {read : Item → Except Diagnostic α} {get : σ → α}
    {set : σ → α → σ} {Fits : Item → Prop} {Says : Item → α → Prop} {stock : α}
    (hfits : ∀ {item}, item.Distinct → (Fits item ↔ ∃ v, Says item v))
    (hread : ∀ {item v}, item.Distinct → (read item = .ok v ↔ Says item v))
    (hget : ∀ group v, get (set group v) = v) :
    Means ⟨name, fun item group => (read item).map (set group)⟩ ⟨name, get, Fits, Says, stock⟩ where
  name := rfl
  fits := hfits
  sound := by
    intro item group group' hitem hok
    obtain ⟨v, hv, rfl⟩ := map_eq_ok_iff.mp hok
    dsimp only
    rw [hget]
    exact (hread hitem).mp hv
  complete := by
    intro item v group hitem hsays
    exact ⟨set group v, map_eq_ok_iff.mpr ⟨v, (hread hitem).mpr hsays, rfl⟩, hget group v⟩

namespace Explains

variable {ms : List (FieldMeaning σ)} {fields : List (GroupField σ)} {stock : σ}
  (h : Explains ms fields stock)
include h

/-- No two fields have the same name. -/
lemma eq_of_name {m m' : FieldMeaning σ} (hm : m ∈ ms) (hm' : m' ∈ ms) (hname : m.name = m'.name) :
    m = m' :=
  List.inj_on_of_nodup_map h.names hm hm' hname

/-- The readers have the names of the fields. -/
lemma names_eq : GroupField.names fields = ms.map (·.name) := by
  have hnames := h.means.imp fun f m (hm : Means f m) => hm.name
  rw [GroupField.names, ← List.forall₂_eq_eq_eq, List.forall₂_map_left_iff,
    List.forall₂_map_right_iff]
  exact hnames

/-- Every field has a reader. -/
lemma exists_field {m : FieldMeaning σ} (hm : m ∈ ms) : ∃ f ∈ fields, Means f m := by
  obtain ⟨n, hn, rfl⟩ := List.mem_iff_getElem.mp hm
  have hn' : n < fields.length := h.means.length_eq.symm ▸ hn
  exact ⟨fields[n], List.getElem_mem hn', h.means.get hn' hn⟩

/-- A key that is a field is found, and read as what the field means. -/
lemma find?_eq_some {f : GroupField σ} {key : String}
    (hfind : fields.find? (·.name = key) = some f) :
    f ∈ fields ∧ ∃ m ∈ ms, Means f m ∧ m.name = key := by
  have hf : f ∈ fields := List.mem_of_find?_eq_some hfind
  obtain ⟨n, hn, rfl⟩ := List.mem_iff_getElem.mp hf
  have hn' : n < ms.length := h.means.length_eq ▸ hn
  have hmeans : Means fields[n] ms[n] := h.means.get hn hn'
  have hname : fields[n].name = key := by simpa using List.find?_some hfind
  exact ⟨hf, ms[n], List.getElem_mem hn', hmeans, hmeans.name.symm.trans hname⟩

/-- A key without a reader is no field. -/
lemma find?_eq_none {key : String} (hfind : fields.find? (·.name = key) = none) :
    key ∉ ms.map (·.name) := by
  rw [← h.names_eq, GroupField.names, List.mem_map]
  rintro ⟨f, hf, rfl⟩
  simpa using List.find?_eq_none.mp hfind f hf

end Explains

/-! ## Reading key by key -/

/-- The keys of a table lead from one group to another: there are no other keys than the fields, and
what no key says anything of stays as it is. -/
structure LeadsTo (ms : List (FieldMeaning σ)) (start : σ) (es : Entries) (group : σ) : Prop where
  known : ∀ e ∈ es, e.1.text ∈ ms.map (·.name)
  holds : ∀ m ∈ ms, m.Holds (m.part start) group (es.get? m.name)

namespace Explains

variable {ms : List (FieldMeaning σ)} {fields : List (GroupField σ)} {stock : σ}
  (h : Explains ms fields stock)
include h

/-- Where one key has been read, the others are still to be read, and the part of that key is what
it will be. -/
lemma leadsTo_cons_iff {f : GroupField σ} {m : FieldMeaning σ} (hf : f ∈ fields) (hm : m ∈ ms)
    (hmeans : Means f m) {e : Key × Item} {es : Entries} (hes : Entries.Distinct (e :: es))
    (hname : m.name = e.1.text) {start next group : σ} (hread : f.read e.2 start = .ok next) :
    LeadsTo ms start (e :: es) group ∧ m.part next = m.part group ↔
      LeadsTo ms next es group := by
  have hfirst : Entries.get? (e :: es) e.1.text = some e.2 := by simp [Entries.get?]
  have hnew : es.get? e.1.text = none := hes.get?_head
  -- the entry is about one field; for all others nothing depends on it
  have hother : ∀ m' ∈ ms, m'.name ≠ e.1.text →
      (m'.Holds (m'.part start) group (Entries.get? (e :: es) m'.name) ↔
        m'.Holds (m'.part next) group (es.get? m'.name)) := by
    intro m' hm' hne
    have hpart : m'.part next = m'.part start :=
      h.frame f hf hread m' hm' (by rwa [hmeans.name, hname])
    have hget : Entries.get? (e :: es) m'.name = es.get? m'.name := by
      rw [Entries.get?, List.find?_cons_of_neg (by simpa using hne.symm), Entries.get?]
    rw [hget]
    cases es.get? m'.name with
    | none => rw [FieldMeaning.Holds, FieldMeaning.Holds, hpart]
    | some item => rfl
  constructor
  · rintro ⟨htable, hpart⟩
    refine ⟨(List.forall_mem_cons.mp htable.known).2, fun m' hm' => ?_⟩
    by_cases hsame : m'.name = e.1.text
    · obtain rfl : m' = m := h.eq_of_name hm' hm (hsame.trans hname.symm)
      rw [hname, hnew]
      exact hpart.symm
    · exact (hother m' hm' hsame).mp (htable.holds m' hm')
  · intro htable
    have hpart : m.part group = m.part next := by
      simpa only [hname, hnew, FieldMeaning.Holds] using htable.holds m hm
    refine ⟨⟨List.forall_mem_cons.mpr ⟨?_, htable.known⟩, fun m' hm' => ?_⟩, hpart.symm⟩
    · exact hname ▸ List.mem_map_of_mem hm
    · by_cases hsame : m'.name = e.1.text
      · obtain rfl : m' = m := h.eq_of_name hm' hm (hsame.trans hname.symm)
        rw [hname, hfirst, FieldMeaning.Holds, hpart]
        exact hmeans.sound (hes.members e List.mem_cons_self) hread
      · exact (hother m' hm' hsame).mpr (htable.holds m' hm')

/-- Keys that differ from one another are read one after the other, each into its own part. -/
lemma foldlM_readEntry_iff {es : Entries} (hes : es.Distinct) {start group : σ} :
    es.foldlM (readEntry fields) start = .ok group ↔ LeadsTo ms start es group := by
  -- On the keys that are left, for whatever group the reading has come to.
  induction es generalizing start with
  | nil =>
    constructor
    · intro hread
      obtain rfl := Except.ok.inj hread
      exact ⟨nofun, fun m _ => rfl⟩
    · intro htable
      exact congrArg _ (h.ext fun m hm => (htable.holds m hm).symm)
  | cons e es ih =>
    rw [List.foldlM_cons, readEntry]
    cases hfind : fields.find? (·.name = e.1.text) with
    | none =>
      refine iff_of_false (fun hread => by cases hread) fun htable => ?_
      exact h.find?_eq_none hfind (htable.known e List.mem_cons_self)
    | some f =>
      obtain ⟨hf, m, hm, hmeans, hname⟩ := h.find?_eq_some hfind
      constructor
      · intro hread
        cases hnext : f.read e.2 start with
        | error d =>
          simp only [hnext] at hread
          cases hread
        | ok next =>
          simp only [hnext] at hread
          have hrest : es.foldlM (readEntry fields) next = .ok group := hread
          exact ((h.leadsTo_cons_iff hf hm hmeans hes hname hnext).mpr
            ((ih hes.tail).mp hrest)).1
      · intro htable
        -- What the group has in the end is what the field is read as, although it is read first.
        have hsays : m.Says e.2 (m.part group) := by
          simpa [hname, Entries.get?, FieldMeaning.Holds] using htable.holds m hm
        have he : e.2.Distinct := hes.members e List.mem_cons_self
        obtain ⟨next, hnext, hpart⟩ := hmeans.complete start he hsays
        have hrest := (ih hes.tail).mpr
          ((h.leadsTo_cons_iff hf hm hmeans hes hname hnext).mp ⟨htable, hpart⟩)
        simp only [hnext]
        exact hrest

/-- The keys of a table lead somewhere if the table fits. -/
lemma exists_leadsTo_iff {es : Entries} (hes : es.Distinct) (start : σ) :
    (∃ group, LeadsTo ms start es group) ↔ TableFits ms es := by
  constructor
  · rintro ⟨group, hleads⟩
    refine ⟨hleads.known, fun m hm item hitem => ?_⟩
    obtain ⟨f, -, hmeans⟩ := h.exists_field hm
    have hsays : m.Says item (m.part group) := by
      simpa only [hitem, FieldMeaning.Holds] using hleads.holds m hm
    exact (hmeans.fits (hes.get? hitem)).mpr ⟨_, hsays⟩
  · intro hfits
    induction es generalizing start with
    | nil => exact ⟨start, nofun, fun m _ => rfl⟩
    | cons e es ih =>
      obtain ⟨hkey, hknown⟩ := List.forall_mem_cons.mp hfits.known
      obtain ⟨m, hm, hname⟩ := List.mem_map.mp hkey
      obtain ⟨f, hf, hmeans⟩ := h.exists_field hm
      have he : e.2.Distinct := hes.members e List.mem_cons_self
      have hfirst : m.Fits e.2 := hfits.fits m hm e.2 (by simp [Entries.get?, hname])
      obtain ⟨v, hv⟩ := (hmeans.fits he).mp hfirst
      obtain ⟨next, hnext, -⟩ := hmeans.complete start he hv
      have hrest : TableFits ms es := by
        refine ⟨hknown, fun m' hm' item hitem => hfits.fits m' hm' item ?_⟩
        have hne : e.1.text ≠ m'.name := by
          intro heq
          rw [← heq, hes.get?_head] at hitem
          cases hitem
        rwa [Entries.get?, List.find?_cons_of_neg (by simpa using hne), ← Entries.get?]
      obtain ⟨group, hleads⟩ := ih hes.tail next hrest
      exact ⟨group, ((h.leadsTo_cons_iff hf hm hmeans hes hname hnext).mpr hleads).1⟩

/-- What the keys lead to from the stock group is what the table is read as. -/
lemma leadsTo_stock_iff {es : Entries} {group : σ} :
    LeadsTo ms stock es group ↔ TableReadsAs ms es group := by
  constructor
  · intro hleads
    exact ⟨hleads.known, fun m hm => h.stock m hm ▸ hleads.holds m hm⟩
  · intro htable
    exact ⟨htable.known, fun m hm => (h.stock m hm).symm ▸ htable.holds m hm⟩

/-- The order in which the keys are read is of no account. -/
lemma readEntries_iff {es : Entries} (hes : es.Distinct) {group : σ} :
    readEntries fields stock es = .ok group ↔ TableReadsAs ms es group := by
  have hperm : (inKeyOrder es).Perm es := List.mergeSort_perm es _
  have hsorted : (inKeyOrder es).Distinct := hes.perm hperm.symm
  have hget : ∀ key, (inKeyOrder es).get? key = es.get? key :=
    fun key => Entries.get?_eq_of_perm hperm hsorted.keys key
  rw [readEntries, h.foldlM_readEntry_iff hsorted, h.leadsTo_stock_iff]
  constructor
  · intro htable
    exact ⟨fun e he => htable.known e (hperm.mem_iff.mpr he),
      fun m hm => hget m.name ▸ htable.holds m hm⟩
  · intro htable
    exact ⟨fun e he => htable.known e (hperm.mem_iff.mp he),
      fun m hm => (hget m.name).symm ▸ htable.holds m hm⟩

/-- A table is read as some group if and only if it fits. -/
lemma exists_tableReadsAs_iff {es : Entries} (hes : es.Distinct) :
    (∃ group, TableReadsAs ms es group) ↔ TableFits ms es := by
  rw [← h.exists_leadsTo_iff hes stock]
  exact exists_congr fun group => h.leadsTo_stock_iff.symm

end Explains

/-! ## Reading by position -/

/-- The members of an array under the names of the fields in their order. -/
def positional (fields : List (GroupField σ)) (items : List Item) : Entries :=
  (fields.zip items).map fun (f, item) => (⟨f.name, ⟨[], []⟩⟩, item)

/-- By position a field has the member in its own place. -/
lemma get?_positional {ms : List (FieldMeaning σ)} {fields : List (GroupField σ)}
    (hmeans : List.Forall₂ Means fields ms) (hnames : (ms.map (·.name)).Nodup) (items : List Item)
    {n : ℕ} {m : FieldMeaning σ} (hm : ms[n]? = some m) :
    (positional fields items).get? m.name = items[n]? := by
  induction hmeans generalizing items n with
  | nil => simp at hm
  | @cons f m₀ fields ms hfirst _ ih =>
    have hname : m₀.name ∉ ms.map (·.name) := (List.nodup_cons.mp hnames).1
    replace hnames : (ms.map (·.name)).Nodup := (List.nodup_cons.mp hnames).2
    cases items with
    | nil => rfl
    | cons item items =>
      cases n with
      | zero =>
        obtain rfl : m₀ = m := by simpa using hm
        simp [positional, Entries.get?, hfirst.name]
      | succ n =>
        have hne : f.name ≠ m.name := by
          intro heq
          have hmem : m.name ∈ ms.map (·.name) :=
            List.mem_map_of_mem (List.mem_of_getElem? (by simpa using hm))
          exact hname (hfirst.name ▸ heq ▸ hmem)
        have hrest := ih hnames items (n := n) (by simpa using hm)
        rw [List.getElem?_cons_succ, ← hrest]
        simp [positional, Entries.get?, hne]

namespace Explains

variable {ms : List (FieldMeaning σ)} {fields : List (GroupField σ)} {stock : σ}
  (h : Explains ms fields stock)
include h

/-- An entry is read by the reader of its field. -/
lemma readEntry_of_mem {f : GroupField σ} (hf : f ∈ fields) (span : Span) (item : Item)
    (group : σ) : readEntry fields group (⟨f.name, span⟩, item) = f.read item group := by
  have hnames : (fields.map (·.name)).Nodup := by
    have := h.names
    rwa [← h.names_eq, GroupField.names] at this
  have hfind : fields.find? (·.name = f.name) = some f := by
    cases hfind : fields.find? (·.name = f.name) with
    | none => simpa using List.find?_eq_none.mp hfind f hf
    | some f' =>
      have hname : f'.name = f.name := by simpa using List.find?_some hfind
      rw [List.inj_on_of_nodup_map hnames (List.mem_of_find?_eq_some hfind) hf hname]
  rw [readEntry]
  simp only [hfind]

/-- An array is read like the table of its members under the names of the fields. -/
lemma readMembers_eq (start : σ) (items : List Item) :
    readMembers fields start items = (positional fields items).foldlM (readEntry fields) start := by
  have hread : ∀ pairs : List (GroupField σ × Item), (∀ pair ∈ pairs, pair.1 ∈ fields) → ∀ group,
      pairs.foldlM (fun group (f, item) => f.read item group) group
        = pairs.foldlM (fun group (f, item) =>
            readEntry fields group (⟨f.name, ⟨[], []⟩⟩, item)) group := by
    intro pairs
    induction pairs with
    | nil => exact fun _ _ => rfl
    | cons pair pairs ih =>
      intro hpairs group
      obtain ⟨hpair, hpairs⟩ := List.forall_mem_cons.mp hpairs
      rw [List.foldlM_cons, List.foldlM_cons]
      dsimp only
      rw [h.readEntry_of_mem hpair]
      exact bind_congr (ih hpairs)
  rw [readMembers, positional, List.foldlM_map]
  exact hread _ (fun pair hpair => (List.of_mem_zip hpair).1) start

section Members

variable {items : List Item} (hitems : ∀ i ∈ items, i.Distinct)

/-- By position the keys are the first fields in their order. -/
lemma sublist_positional :
    ((positional fields items).map (·.1.text)).Sublist (ms.map (·.name)) := by
  have hlength : (fields.take (min fields.length items.length)).length
      ≤ (items.take (min fields.length items.length)).length := by simp
  have hfirst : (fields.zip items).map Prod.fst = fields.take (min fields.length items.length) := by
    rw [List.zip_eq_zip_take_min, List.map_fst_zip hlength]
  have hnames : (positional fields items).map (·.1.text)
      = ((fields.zip items).map Prod.fst).map (·.name) := by
    rw [positional, List.map_map, List.map_map]
    rfl
  rw [hnames, hfirst, ← h.names_eq, GroupField.names]
  exact (List.take_sublist _ _).map _

include hitems in

/-- By position no key is there twice. -/
lemma distinct_positional : (positional fields items).Distinct := by
  refine ⟨h.sublist_positional.nodup h.names, fun e he => ?_⟩
  obtain ⟨⟨f, item⟩, hpair, rfl⟩ := List.mem_map.mp he
  exact hitems item (List.of_mem_zip hpair).2

/-- By position a group has what the members say in their order. -/
lemma tableReadsAs_positional_iff {group : σ} :
    TableReadsAs ms (positional fields items) group ↔
      ∀ (n : ℕ) m, ms[n]? = some m → m.Holds m.stock group items[n]? := by
  constructor
  · intro htable n m hm
    rw [← get?_positional h.means h.names items hm]
    exact htable.holds m (List.mem_of_getElem? hm)
  · intro hholds
    refine ⟨fun e he => h.sublist_positional.subset (List.mem_map_of_mem he), fun m hm => ?_⟩
    obtain ⟨n, hn⟩ := List.mem_iff_getElem?.mp hm
    rw [get?_positional h.means h.names items hn]
    exact hholds n m hn

/-- By position it is each member that has to fit its field. -/
lemma tableFits_positional_iff :
    TableFits ms (positional fields items) ↔
      ∀ (n : ℕ) m item, ms[n]? = some m → items[n]? = some item → m.Fits item := by
  constructor
  · intro htable n m item hm hitem
    rw [← get?_positional h.means h.names items hm] at hitem
    exact htable.fits m (List.mem_of_getElem? hm) item hitem
  · intro hfits
    refine ⟨fun e he => h.sublist_positional.subset (List.mem_map_of_mem he), fun m hm item => ?_⟩
    obtain ⟨n, hn⟩ := List.mem_iff_getElem?.mp hm
    rw [get?_positional h.means h.names items hn]
    exact hfits n m item hn

include hitems in

/-- An array is read as a group that has what the members say in their order. -/
lemma readMembers_iff {group : σ} :
    readMembers fields stock items = .ok group ↔
      ∀ (n : ℕ) m, ms[n]? = some m → m.Holds m.stock group items[n]? := by
  rw [h.readMembers_eq, h.foldlM_readEntry_iff (h.distinct_positional hitems),
    h.leadsTo_stock_iff, h.tableReadsAs_positional_iff]

end Members

/-- The reader of a group succeeds on exactly the values that are read as a group. -/
theorem readGroup_iff {name : String} {group : σ} {item : Item} (hitem : item.Distinct) :
    readGroup name fields stock item = .ok group ↔ ReadsAs ms item group := by
  cases item with
  | scalar span s =>
    refine iff_of_false (fun hread => ?_) nofun
    cases s <;> cases hread
  | array span ofTables items =>
    obtain _ | ⟨hitems⟩ := hitem
    rw [readGroup, h.readMembers_iff hitems]
    constructor
    · exact .array
    · rintro ⟨⟩
      assumption
  | table span origin es =>
    rw [readGroup, h.readEntries_iff (.ofTable hitem)]
    constructor
    · exact .table
    · rintro ⟨⟩
      assumption

/-- Those are the values that fit the group. -/
theorem groupFits_iff {item : Item} (hitem : item.Distinct) :
    GroupFits ms item ↔ ∃ group, ReadsAs ms item group := by
  cases item with
  | scalar => exact iff_of_false nofun fun ⟨_, hreads⟩ => nomatch hreads
  | array span ofTables items =>
    obtain _ | ⟨hitems⟩ := hitem
    have hexists := h.exists_tableReadsAs_iff (h.distinct_positional hitems)
    rw [h.tableFits_positional_iff] at hexists
    simp only [h.tableReadsAs_positional_iff] at hexists
    constructor
    · rintro ⟨⟩
      exact (hexists.mpr ‹_›).imp fun _ => .array
    · rintro ⟨group, ⟨⟩⟩
      exact .array (hexists.mp ⟨group, ‹_›⟩)
  | table span origin es =>
    have hexists := h.exists_tableReadsAs_iff (.ofTable hitem)
    constructor
    · rintro ⟨⟩
      exact (hexists.mpr ‹_›).imp fun _ => .table
    · rintro ⟨group, ⟨⟩⟩
      exact .table (hexists.mp ⟨group, ‹_›⟩)

end Explains

/-! ## Values of one kind -/

/-- A truth value. -/
def Item.IsBoolean (item : Item) (b : Bool) : Prop :=
  ∃ span, item = .scalar span (.boolean b)

/-- An integer, whatever its size. -/
def Item.IsInteger (item : Item) (i : Int) : Prop :=
  ∃ span, item = .scalar span (.integer i)

section Kinds

variable {item : Item}

/-- A truth value is read from an item that is one. -/
lemma bool_eq_ok_iff {b : Bool} : item.bool = .ok b ↔ item.IsBoolean b := by
  constructor
  · intro h
    unfold Item.bool at h
    split at h
    next span b' => exact ⟨span, by rw [Except.ok.inj h]⟩
    next => cases h
  · rintro ⟨span, rfl⟩
    rfl

/-- An integer within bounds is read from an item that is one. -/
lemma bounded_eq_ok_iff {want : Want} {low high i : Int} :
    item.bounded want low high = .ok i ↔ item.IsInteger i ∧ low ≤ i ∧ i ≤ high := by
  constructor
  · intro h
    unfold Item.bounded at h
    split at h
    next span j =>
      split at h
      next hj =>
        obtain rfl := Except.ok.inj h
        exact ⟨⟨span, rfl⟩, hj⟩
      next => split at h <;> cases h
    next => cases h
  · rintro ⟨⟨span, rfl⟩, hbounds⟩
    rw [Item.bounded, if_pos hbounds]

/-- A number within bounds goes through a word unchanged. -/
lemma toNat_ofNat_toNat {i : Int} (hlow : 0 ≤ i) (hhigh : i < 2 ^ 32) :
    ((UInt32.ofNat i.toNat).toNat : Int) = i := by
  rw [UInt32.toNat_ofNat']
  omega

/-- An integer is read as the word that is equal to it, or not at all. -/
lemma word32_eq_ok_iff {n : UInt32} : item.word32 = .ok n ↔ item.IsInteger n.toNat := by
  have hn : n.toNat < 2 ^ 32 := n.toNat_lt
  rw [Item.word32, map_eq_ok_iff, words32]
  constructor
  · rintro ⟨i, hi, rfl⟩
    obtain ⟨hinteger, hlow, hhigh⟩ := bounded_eq_ok_iff.mp hi
    rwa [toNat_ofNat_toNat hlow (by omega)]
  · intro hinteger
    refine ⟨n.toNat, bounded_eq_ok_iff.mpr ⟨hinteger, by omega, by omega⟩, ?_⟩
    rw [Int.toNat_natCast, UInt32.ofNat_toNat]

/-- A signed word is read from an item that is that integer. -/
lemma signed32_eq_ok_iff {n : Int32} : item.signed32 = .ok n ↔ item.IsInteger n.toInt := by
  have hlow : -2 ^ 31 ≤ n.toInt := n.le_toInt
  have hhigh : n.toInt < 2 ^ 31 := n.toInt_lt
  rw [Item.signed32, map_eq_ok_iff, words32]
  constructor
  · rintro ⟨i, hi, rfl⟩
    obtain ⟨hinteger, hlow, hhigh⟩ := bounded_eq_ok_iff.mp hi
    rwa [Int32.toInt_ofInt_of_le (by omega) (by omega)]
  · intro hinteger
    exact ⟨n.toInt, bounded_eq_ok_iff.mpr ⟨hinteger, by omega, by omega⟩, Int32.ofInt_toInt n⟩

/-- The integers that are equal to a word are those in its range. -/
lemma exists_word32_iff :
    (∃ i, item.IsInteger i ∧ 0 ≤ i ∧ i < 2 ^ 32) ↔ ∃ n : UInt32, item.IsInteger n.toNat := by
  constructor
  · rintro ⟨i, hinteger, hlow, hhigh⟩
    exact ⟨UInt32.ofNat i.toNat, by rwa [toNat_ofNat_toNat hlow hhigh]⟩
  · rintro ⟨n, hinteger⟩
    have hn : n.toNat < 2 ^ 32 := n.toNat_lt
    exact ⟨n.toNat, hinteger, by omega, by omega⟩

/-- An integer within the bounds is a signed word. -/
lemma exists_signed32_iff :
    (∃ i, item.IsInteger i ∧ -2 ^ 31 ≤ i ∧ i < 2 ^ 31) ↔
      ∃ n : Int32, item.IsInteger n.toInt := by
  constructor
  · rintro ⟨i, hinteger, hlow, hhigh⟩
    exact ⟨Int32.ofInt i, by rwa [Int32.toInt_ofInt_of_le hlow hhigh]⟩
  · rintro ⟨n, hinteger⟩
    exact ⟨n.toInt, hinteger, n.le_toInt, n.toInt_lt⟩

end Kinds

/-! ## What is said -/

variable {ms : List (FieldMeaning σ)} {group : σ}

/-- A meaning that two values share if they say the same. -/
def FieldMeaning.Extensional (m : FieldMeaning σ) : Prop :=
  ∀ {i j v}, i.SameValues j → m.Says i v → m.Says j v

/-- A field holds alike for items of the same value. -/
lemma FieldMeaning.Extensional.holds {m : FieldMeaning σ} (hm : m.Extensional) {i j : Option Item}
    (hsame : Option.Rel Item.SameValues i j) {otherwise : m.Part} (h : m.Holds otherwise group i) :
    m.Holds otherwise group j := by
  obtain hij | - := hsame
  · exact hm hij h
  · exact h

/-- Tables of the same value are read as the same group. -/
lemma TableReadsAs.sameValues (hms : ∀ m ∈ ms, m.Extensional) {es es' : Entries}
    (hsame : es.SameValues es') (h : TableReadsAs ms es group) :
    TableReadsAs ms es' group where
  known := by
    intro e he
    have hsome : (es.get? e.1.text).isSome := by
      rw [hsame.isSome_eq, Option.isSome_iff_ne_none]
      intro hnone
      exact Entries.get?_eq_none_iff.mp hnone e he rfl
    obtain ⟨item, hitem⟩ := Option.isSome_iff_exists.mp hsome
    obtain ⟨k, hk, htext⟩ := Entries.exists_mem_of_get? hitem
    exact htext ▸ h.known _ hk
  holds := fun m hm => FieldMeaning.Extensional.holds (hms m hm) (hsame m.name) (h.holds m hm)

/-- Values that say the same are read as the same groups. -/
theorem ReadsAs.sameValues (hms : ∀ m ∈ ms, m.Extensional) {i j : Item} (hsame : i.SameValues j)
    (h : ReadsAs ms i group) : ReadsAs ms j group := by
  cases h with
  | table h =>
    obtain ⟨span, origin, es, rfl, hes⟩ := hsame.table
    exact .table (h.sameValues hms hes)
  | array h =>
    obtain ⟨span, ofTables, items, rfl, hitems⟩ := hsame.array
    refine .array fun n m hm => ?_
    exact FieldMeaning.Extensional.holds (hms m (List.mem_of_getElem? hm)) (hitems n) (h n m hm)

end SourceFormat.Toml
