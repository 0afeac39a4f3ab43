import Mathlib
import SourceFormat.Proofs.Toml.Groups
import SourceFormat.Style.Snapshot

/-!
# What the preferences mean

A group of preferences is nothing but the values of its preferences, and each of them can be put
without touching the others (`IsRecord`).  Such a group is read as its preferences mean
(`explains_preferences`): a truth value for a flag, an integer for a count or an offset, which then
is the very number that was written.
-/

namespace SourceFormat.Preference

/-- The value of a preference. -/
inductive Value where
  | flag (b : Bool)
  | count (n : UInt32)
  | offset (n : Int32)

variable {σ : Type}

/-- The value that a group has for a preference. -/
def value (p : Preference σ) (group : σ) : Value :=
  match p.cell with
  | .flag get _ => .flag (get group)
  | .count get _ => .count (get group)
  | .offset get _ => .offset (get group)

/-- One group comes from another by putting a value for a preference. -/
inductive Puts : Cell σ → Value → σ → σ → Prop where
  | flag {get set} (b : Bool) (group : σ) : Puts (.flag get set) (.flag b) group (set group b)
  | count {get set} (n : UInt32) (group : σ) : Puts (.count get set) (.count n) group (set group n)
  | offset {get set} (n : Int32) (group : σ) :
    Puts (.offset get set) (.offset n) group (set group n)

/-- The preferences have names of their own, each can be put without touching the others, and there
is nothing else to the group. -/
structure IsRecord (ps : List (Preference σ)) : Prop where
  names : (ps.map (·.name)).Nodup
  put : ∀ {n p v group group'}, ps[n]? = some p → Puts p.cell v group group' →
    ps.map (·.value group') = (ps.map (·.value group)).set n v
  ext : ∀ {group group' : σ}, ps.map (·.value group) = ps.map (·.value group') → group = group'

namespace IsRecord

variable {ps : List (Preference σ)} (h : IsRecord ps)
include h

/-- What has been put is there. -/
lemma value_put {p : Preference σ} (hp : p ∈ ps) {v : Value} {group group' : σ}
    (hput : Puts p.cell v group group') : p.value group' = v := by
  obtain ⟨n, hn⟩ := List.mem_iff_getElem?.mp hp
  have hvalue : (ps.map (·.value group'))[n]? = some (p.value group') := by simp [hn]
  have hlength : n < ps.length := (List.getElem?_eq_some_iff.mp hn).1
  rw [h.put hn hput, List.getElem?_set_self (by simpa using hlength)] at hvalue
  exact (Option.some.inj hvalue).symm

/-- What is put for one preference leaves the others as they are. -/
lemma value_put_of_ne {p q : Preference σ} (hp : p ∈ ps) (hq : q ∈ ps) (hne : q.name ≠ p.name)
    {v : Value} {group group' : σ} (hput : Puts p.cell v group group') :
    q.value group' = q.value group := by
  obtain ⟨n, hn⟩ := List.mem_iff_getElem?.mp hp
  obtain ⟨k, hk⟩ := List.mem_iff_getElem?.mp hq
  have hvalue : (ps.map (·.value group'))[k]? = some (q.value group') := by simp [hk]
  have hnk : n ≠ k := by
    rintro rfl
    exact hne (congrArg name (Option.some.inj (hk.symm.trans hn)))
  rw [h.put hn hput, List.getElem?_set_ne hnk] at hvalue
  simpa [hk] using hvalue.symm

end IsRecord

end SourceFormat.Preference

namespace SourceFormat.Style

open Toml Preference

variable {σ : Type}

/-! ## Fields -/

/-- A field for a truth value. -/
def flag (name : String) (part : σ → Bool) (stock : Bool) : FieldMeaning σ where
  name
  part
  Fits item := ∃ b, item.IsBoolean b
  Says := Item.IsBoolean
  stock

/-- A field for a count.  An integer in its range says the count that is equal to it. -/
def count (name : String) (part : σ → UInt32) (stock : UInt32) : FieldMeaning σ where
  name
  part
  Fits item := ∃ i, item.IsInteger i ∧ 0 ≤ i ∧ i < 2 ^ 32
  Says item n := item.IsInteger n.toNat
  stock

/-- A field for an offset.  An integer in its range says the offset that is equal to it. -/
def offset (name : String) (part : σ → Int32) (stock : Int32) : FieldMeaning σ where
  name
  part
  Fits item := ∃ i, item.IsInteger i ∧ -2 ^ 31 ≤ i ∧ i < 2 ^ 31
  Says item n := item.IsInteger n.toInt
  stock

/-- What the field of a preference means. -/
def meaningOf (stock : σ) (p : Preference σ) : FieldMeaning σ :=
  match p.cell with
  | .flag get _ => flag p.name get (get stock)
  | .count get _ => count p.name get (get stock)
  | .offset get _ => offset p.name get (get stock)

variable (stock : σ)

@[simp] lemma name_meaningOf (p : Preference σ) : (meaningOf stock p).name = p.name := by
  unfold meaningOf
  split <;> rfl

/-- Two groups have the same part for a field if they have the same value for the preference. -/
lemma part_meaningOf_eq_iff (p : Preference σ) (group group' : σ) :
    (meaningOf stock p).part group = (meaningOf stock p).part group' ↔
      p.value group = p.value group' := by
  obtain ⟨name, cell⟩ := p
  cases cell <;> simp [meaningOf, value, flag, count, offset]

/-- The stock group has the stock value of every field. -/
lemma part_stock_meaningOf (p : Preference σ) :
    (meaningOf stock p).part stock = (meaningOf stock p).stock := by
  obtain ⟨name, cell⟩ := p
  cases cell <;> rfl

/-- The fields of preferences are read alike from items of the same value. -/
lemma extensional_preferences (ps : List (Preference σ)) :
    ∀ m ∈ ps.map (meaningOf stock), m.Extensional := by
  intro m hm i j v hsame hsays
  obtain ⟨⟨name, cell⟩, -, rfl⟩ := List.mem_map.mp hm
  cases cell <;>
    · obtain ⟨span, rfl⟩ := hsays
      exact hsame.scalar

/-- Reading a field is putting what its value says. -/
lemma read_fieldOf {p : Preference σ} {item : Item} {group group' : σ}
    (h : (fieldOf p).read item group = .ok group') : ∃ v, Puts p.cell v group group' := by
  obtain ⟨name, cell⟩ := p
  cases cell <;>
    · obtain ⟨v, -, rfl⟩ := map_eq_ok_iff.mp h
      exact ⟨_, by constructor⟩

/-- The field of a preference means that preference. -/
lemma means_fieldOf {ps : List (Preference σ)} (h : IsRecord ps) {p : Preference σ} (hp : p ∈ ps) :
    Means (fieldOf p) (meaningOf stock p) := by
  obtain ⟨name, cell⟩ := p
  cases cell with
  | flag get set =>
    exact .of_read (fun _ => .rfl) (fun _ => bool_eq_ok_iff) fun group b =>
      Value.flag.inj (h.value_put hp (.flag b group))
  | count get set =>
    exact .of_read (fun _ => exists_word32_iff) (fun _ => word32_eq_ok_iff) fun group n =>
      Value.count.inj (h.value_put hp (.count n group))
  | offset get set =>
    exact .of_read (fun _ => exists_signed32_iff) (fun _ => signed32_eq_ok_iff) fun group n =>
      Value.offset.inj (h.value_put hp (.offset n group))

/-- The fields of a record explain it. -/
lemma explains_preferences {ps : List (Preference σ)} (h : IsRecord ps) :
    Explains (ps.map (meaningOf stock)) (ps.map fieldOf) stock where
  stock := by
    intro m hm
    obtain ⟨p, -, rfl⟩ := List.mem_map.mp hm
    exact part_stock_meaningOf stock p
  names := by
    rw [List.map_map]
    simpa [Function.comp_def] using h.names
  means := by
    rw [List.forall₂_map_left_iff, List.forall₂_map_right_iff, List.forall₂_same]
    exact fun p hp => means_fieldOf stock h hp
  frame := by
    intro f hf item group group' hread m hm hne
    obtain ⟨p, hp, rfl⟩ := List.mem_map.mp hf
    obtain ⟨q, hq, rfl⟩ := List.mem_map.mp hm
    obtain ⟨v, hput⟩ := read_fieldOf hread
    rw [part_meaningOf_eq_iff]
    exact h.value_put_of_ne hp hq (by simpa [fieldOf] using hne) hput
  ext := by
    intro group group' hparts
    refine h.ext (List.map_congr_left fun p hp => ?_)
    exact (part_meaningOf_eq_iff stock p group group').mp (hparts _ (List.mem_map_of_mem hp))

/-! ## The three groups -/

/-- Indentation is a record of its preferences. -/
lemma isRecord_indent : IsRecord Indent.preferences where
  names := by decide
  put := by
    intro n p v group group' hp hput
    match n with
    | 0 | 1 | 2 | 3 | 4 | 5 | 6 =>
      obtain rfl := Option.some.inj hp
      cases hput
      rfl
    | n + 7 => cases hp
  ext := by
    intro group group' h
    cases group
    cases group'
    simpa [Indent.preferences, value] using h

/-- Spacing is a record of its preferences. -/
lemma isRecord_spacing : IsRecord Spacing.preferences where
  names := by decide
  put := by
    intro n p v group group' hp hput
    match n with
    | 0 | 1 | 2 | 3 | 4 | 5 | 6 | 7 | 8 | 9 | 10 | 11 | 12 | 13 | 14 | 15 | 16 | 17 | 18 | 19 | 20
    | 21 | 22 | 23 | 24 | 25 | 26 | 27 | 28 | 29 | 30 =>
      obtain rfl := Option.some.inj hp
      cases hput
      rfl
    | n + 31 => cases hp
  ext := by
    intro group group' h
    cases group
    cases group'
    simpa [Spacing.preferences, value] using h

/-- Blank lines are a record of their preferences. -/
lemma isRecord_blankLines : IsRecord BlankLines.preferences where
  names := by decide
  put := by
    intro n p v group group' hp hput
    match n with
    | 0 | 1 | 2 | 3 | 4 | 5 =>
      obtain rfl := Option.some.inj hp
      cases hput
      rfl
    | n + 6 => cases hp
  ext := by
    intro group group' h
    cases group
    cases group'
    simpa [BlankLines.preferences, value] using h

end SourceFormat.Style
