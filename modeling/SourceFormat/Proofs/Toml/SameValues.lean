import Mathlib
import SourceFormat.Proofs.Toml.Distinct

/-!
# What a document says

A value is taken apart along paths: into a table by a key, into an array by a position.  What stands
at the end of a path is a scalar, or the fact that there is an array or a table.  Two values say the
same if the same stands at the end of every path (`Item.SameValues`); where a value was written, in
which order the keys of a table were, and how the table came about are no part of that.
-/

namespace SourceFormat.Toml

/-- One step into a value. -/
inductive PathStep where
  | key (name : String)
  | index (n : ℕ)

/-- What stands at the end of a path. -/
inductive Leaf where
  | scalar (s : Scalar)
  | array
  | table

namespace Item

/-- What a value is, without the values inside it. -/
def leaf : Item → Leaf
  | .scalar _ s => .scalar s
  | .array .. => .array
  | .table .. => .table

/-- The value one step further in. -/
def step? : Item → PathStep → Option Item
  | .table _ _ es, .key name => Entries.get? es name
  | .array _ _ items, .index n => items[n]?
  | _, _ => none

/-- What stands at the end of a path. -/
def at? : List PathStep → Item → Option Leaf
  | [], item => some item.leaf
  | step :: path, item => (item.step? step).bind (at? path)

/-- The same stands at the end of every path. -/
def SameValues (i j : Item) : Prop :=
  ∀ path, i.at? path = j.at? path

end Item

/-- Under every key there is a value in neither table, or there is one in both that says the
same. -/
def Entries.SameValues (es es' : Entries) : Prop :=
  ∀ key, Option.Rel Item.SameValues (es.get? key) (es'.get? key)

namespace Item.SameValues

variable {i j : Item}

/-- A value says the same as itself. -/
lemma refl (i : Item) : i.SameValues i := fun _ => rfl

/-- What says the same says it both ways. -/
lemma symm (h : i.SameValues j) : j.SameValues i := fun path => (h path).symm

/-- Values that say the same are of one kind. -/
lemma leaf_eq (h : i.SameValues j) : i.leaf = j.leaf := Option.some.inj (h [])

/-- One step further in there is nothing on either side, or the same. -/
lemma step? (h : i.SameValues j) (step : PathStep) :
    Option.Rel Item.SameValues (i.step? step) (j.step? step) := by
  have hpath : ∀ path, (i.step? step).bind (at? path) = (j.step? step).bind (at? path) :=
    fun path => h (step :: path)
  cases hi : i.step? step with
  | none =>
    cases hj : j.step? step with
    | none => exact .none
    | some y => simpa [hi, hj, at?] using hpath []
  | some x =>
    cases hj : j.step? step with
    | none => simpa [hi, hj, at?] using hpath []
    | some y => exact .some fun path => by simpa [hi, hj] using hpath path

/-- Scalars say the same wherever they stand. -/
lemma scalar_scalar {span span' : Span} {s : Scalar} :
    (Item.scalar span s).SameValues (.scalar span' s) := by
  intro path
  cases path with
  | nil => rfl
  | cons => rfl

/-- Only the same scalar says what a scalar says. -/
lemma scalar {span : Span} {s : Scalar} (h : (Item.scalar span s).SameValues j) :
    ∃ span', j = .scalar span' s := by
  cases j with
  | scalar span' t =>
    obtain rfl : s = t := Leaf.scalar.inj h.leaf_eq
    exact ⟨span', rfl⟩
  | array => cases h.leaf_eq
  | table => cases h.leaf_eq

/-- Only an array with the same members says what an array says. -/
lemma array {span : Span} {ofTables : Bool} {items : List Item}
    (h : (Item.array span ofTables items).SameValues j) :
    ∃ span' ofTables' items', j = .array span' ofTables' items' ∧
      ∀ n : ℕ, Option.Rel Item.SameValues items[n]? items'[n]? := by
  cases j with
  | scalar => cases h.leaf_eq
  | array span' ofTables' items' =>
    exact ⟨span', ofTables', items', rfl, fun n => h.step? (.index n)⟩
  | table => cases h.leaf_eq

/-- Only a table with the same entries says what a table says. -/
lemma table {span : Span} {origin : Origin} {es : Entries}
    (h : (Item.table span origin es).SameValues j) :
    ∃ span' origin' es', j = .table span' origin' es' ∧ es.SameValues es' := by
  cases j with
  | scalar => cases h.leaf_eq
  | array => cases h.leaf_eq
  | table span' origin' es' => exact ⟨span', origin', es', rfl, fun key => h.step? (.key key)⟩

end Item.SameValues

namespace Entries.SameValues

variable {es es' : Entries}

/-- A table says the same as itself. -/
lemma refl (es : Entries) : es.SameValues es := by
  intro key
  cases es.get? key with
  | none => exact .none
  | some item => exact .some (.refl item)

/-- Tables that say the same say it both ways. -/
lemma symm (h : es.SameValues es') : es'.SameValues es := by
  intro key
  match es.get? key, es'.get? key, h key with
  | _, _, .some hsame => exact .some hsame.symm
  | _, _, .none => exact .none

/-- What says the same as a table that says the same says the same. -/
lemma trans {es'' : Entries} (h : es.SameValues es') (h' : es'.SameValues es'') :
    es.SameValues es'' := by
  intro key
  match es.get? key, es'.get? key, es''.get? key, h key, h' key with
  | _, _, _, .some hsame, .some hsame' => exact .some fun path => (hsame path).trans (hsame' path)
  | _, _, _, .none, .none => exact .none

/-- The same keys in the same order, with values that say the same. -/
lemma of_forall₂
    (h : List.Forall₂ (fun e e' => e.1.text = e'.1.text ∧ e.2.SameValues e'.2) es es') :
    es.SameValues es' := by
  intro key
  induction h with
  | nil => exact .none
  | @cons e e' es es' hfirst _ ih =>
    obtain ⟨htext, hsame⟩ := hfirst
    by_cases hkey : e.1.text = key
    · simpa [get?, hkey, ← htext] using hsame
    · simpa [get?, hkey, ← htext] using ih

/-- The same keys in another order. -/
lemma of_perm (hperm : es.Perm es') (hkeys : (es.map (·.1.text)).Nodup) : es.SameValues es' := by
  intro key
  rw [get?_eq_of_perm hperm hkeys]
  exact refl es' key

/-- Tables with the same contents say the same, wherever they are and however they came about. -/
lemma table (h : es.SameValues es') {span span' : Span} {origin origin' : Origin} :
    (Item.table span origin es).SameValues (.table span' origin' es') := by
  intro path
  cases path with
  | nil => rfl
  | cons step path =>
    cases step with
    | index => rfl
    | key name =>
      simp only [Item.at?, Item.step?]
      match es.get? name, es'.get? name, h name with
      | _, _, .some hsame => exact hsame path
      | _, _, .none => rfl

/-- Tables that say the same have the same keys. -/
lemma isSome_eq (h : es.SameValues es') (key : String) :
    (es.get? key).isSome = (es'.get? key).isSome := by
  match es.get? key, es'.get? key, h key with
  | _, _, .some _ => rfl
  | _, _, .none => rfl

end Entries.SameValues

end SourceFormat.Toml
