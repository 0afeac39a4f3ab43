import Mathlib
import SourceFormat.Proofs.Toml.Distinct

/-!
# Tables written line by line

What a line of a document says can be read before it is done: a document is its lines, done one
after the other to the empty root (`parse?_eq_lines`).

A table of the root can be written in three ways: between braces in the line of its key, with a
dotted key for each of its members, or under a header of its own.  All three leave the same entry
behind, apart from the origin of the table (`parse?_parts`).
-/

namespace SourceFormat.Toml

/-! ## Lines -/

/-- What a line of a document says. -/
inductive Line where
  /-- A header in single brackets. -/
  | header (span : Span) (path : List Key) (last : Key)
  /-- A header in double brackets. -/
  | element (span : Span) (path : List Key) (last : Key)
  | assignment (path : List Key) (last : Key) (item : Item)

/-- Do what a line says. -/
def Line.write (s : Progress) : Line → Option Progress
  | .header span path last =>
    (s.root.openTable span path last).map fun root => { root, header := path ++ [last] }
  | .element span path last =>
    (s.root.openElement span path last).map fun root => { root, header := path ++ [last] }
  | .assignment path last item =>
    (Entries.inside s.header (Entries.assign path last item) s.root).map fun root => { s with root }

/-- Read a line, whatever has been written so far. -/
def line? (p : Place) : Option (Line × Place) :=
  match p with
  | '[' :: _ =>
    (header? p).map fun ((element, path, last), behind) =>
      (if element then .element ⟨p, behind⟩ path last else .header ⟨p, behind⟩ path last, behind)
  | _ =>
    (assignment? (value? maxDepth) p).map fun ((path, last, item), behind) =>
      (.assignment path last item, behind)

/-- The lines of a document that say something.  `fuel` bounds the number of all lines. -/
def lines? : ℕ → Place → Option (List Line)
  | 0, _ => none
  | fuel + 1, p =>
    let p := dropSpace p
    match p with
    | [] => some []
    | _ =>
      match finishLine? p with
      | some rest => lines? fuel rest
      | none => do
        let (line, p) ← line? p
        (lines? fuel (← finishLine? p)).map (line :: ·)

/-- The lines of a whole document, behind its byte order mark. -/
def documentLines? (document : String) : Option (List Line) :=
  let p := document.toList
  let body := match p with
    | '\uFEFF' :: rest => rest
    | p => p
  lines? (body.length + 1) body

/-- A line that does not begin with a bracket is an assignment. -/
lemma statement?_of_ne {p : Place} (hp : ∀ rest, p ≠ '[' :: rest) (s : Progress) :
    statement? s p = (assignment? (value? maxDepth) p).bind fun ((path, last, item), behind) =>
      ((Line.assignment path last item).write s).map (·, behind) := by
  unfold statement?
  split
  next => exact absurd rfl (hp _)
  next =>
    cases assignment? (value? maxDepth) p with
    | none => rfl
    | some read =>
      obtain ⟨⟨path, last, item⟩, behind⟩ := read
      simp [Line.write, Option.map_eq_bind, Option.bind_assoc]

/-- A line that is no header is an assignment. -/
lemma line?_of_ne {p : Place} (hp : ∀ rest, p ≠ '[' :: rest) :
    line? p = (assignment? (value? maxDepth) p).map fun ((path, last, item), behind) =>
      (.assignment path last item, behind) := by
  unfold line?
  split
  next => exact absurd rfl (hp _)
  next => rfl

/-- A statement is a line that is read and then written. -/
lemma statement?_eq (s : Progress) (p : Place) :
    statement? s p = (line? p).bind fun (line, behind) => (line.write s).map (·, behind) := by
  by_cases hp : ∃ rest, p = '[' :: rest
  · obtain ⟨rest, rfl⟩ := hp
    unfold statement? line?
    dsimp only
    cases header? ('[' :: rest) with
    | none => rfl
    | some read =>
      obtain ⟨⟨element, path, last⟩, behind⟩ := read
      cases element with
      | false => simp [Line.write, Option.map_eq_bind, Option.bind_assoc]
      | true => simp [Line.write, Option.map_eq_bind, Option.bind_assoc]
  · have hne : ∀ rest, p ≠ '[' :: rest := not_exists.mp hp
    rw [statement?_of_ne hne, line?_of_ne hne, Option.bind_map]
    rfl

/-- Statements are lines that are all read and then written. -/
lemma statements_eq (fuel : ℕ) (s : Progress) (p : Place) :
    statements fuel s p =
      (lines? fuel p).bind fun lines => (lines.foldlM Line.write s).map (·.root) := by
  induction fuel generalizing s p with
  | zero => rfl
  | succ fuel ih =>
    rw [statements, lines?]
    generalize dropSpace p = p
    cases p with
    | nil => rfl
    | cons c p =>
      dsimp only
      cases finishLine? (c :: p) with
      | some rest => exact ih s rest
      | none =>
        rw [statement?_eq]
        cases line? (c :: p) with
        | none => rfl
        | some read =>
          obtain ⟨line, behind⟩ := read
          -- A line that cannot be done is noticed at once, or when all lines are done in turn.
          cases hend : finishLine? behind with
          | none => cases line.write s <;> simp [hend]
          | some rest => cases hwrite : line.write s <;> simp [hend, hwrite, ih, Option.bind_map]

/-- A document is its lines, done one after the other. -/
theorem parse?_eq_lines (document : String) :
    parse? document =
      (documentLines? document).bind fun lines => (lines.foldlM Line.write {}).map (·.root) := by
  rw [parse?, documentLines?]
  exact statements_eq _ {} _

/-! ## The ways to write a table -/

/-- A key of the root with its value, in the way in which it is written. -/
inductive Part where
  /-- In one line, where a table stands between braces. -/
  | line (key : Key) (item : Item)
  /-- A table, in one line with a dotted key for each of its members.  Each line names the table
  anew. -/
  | dotted (key : Key) (first : Key × Item) (more : List (Span × Key × Item))
  /-- A table under a header of its own. -/
  | header (span : Span) (key : Key) (members : Entries)

namespace Part

/-- The lines that it takes. -/
def lines : Part → List Line
  | line key item => [.assignment [] key item]
  | dotted key first more =>
    .assignment [key] first.1 first.2 ::
      more.map fun (span, member, item) => .assignment [⟨key.text, span⟩] member item
  | header span key members =>
    .header span [] key :: members.map fun (member, item) => .assignment [] member item

/-- What is written one by one. -/
def members : Part → Entries
  | line _ _ => []
  | dotted _ first more => first :: more.map (·.2)
  | header _ _ members => members

/-- The key with its value. -/
def entry : Part → Key × Item
  | line key item => (key, item)
  | dotted key first more => (key, .table key.span .dotted (first :: more.map (·.2)))
  | header span key members => (key, .table span .header members)

/-- It begins with a header, so nothing behind it belongs to the root itself. -/
def UnderHeader : Part → Prop
  | header .. => True
  | _ => False

end Part

/-- Parts of a document that can follow one another: no key is there twice, and those that have no
header come first. -/
structure Layout (parts : List Part) : Prop where
  keys : (parts.map (·.entry.1.text)).Nodup
  members : ∀ part ∈ parts, (part.members.map (·.1.text)).Nodup
  headersLast : parts.Pairwise fun part later => part.UnderHeader → later.UnderHeader

namespace Entries

variable {es : Entries} {key : Key} {item : Item}

/-- Behind the others a new key has its value. -/
lemma get?_concat (hnew : es.get? key.text = none) :
    get? (es ++ [(key, item)]) key.text = some item := by
  rw [get?, Option.map_eq_none_iff] at hnew
  simp [get?, List.find?_append, hnew]

/-- Behind the others a new key has its value changed alone. -/
lemma modify_concat (hnew : es.get? key.text = none) (item' : Item) :
    modify (es ++ [(key, item)]) key.text item' = es ++ [(key, item')] := by
  have hkept : es.modify key.text item' = es := by
    refine (List.map_congr_left fun e he => ?_).trans (List.map_id es)
    exact if_neg (get?_eq_none_iff.mp hnew e he)
  rw [modify] at hkept ⊢
  simp [hkept]

/-- Among different keys none that follows was there before. -/
lemma get?_of_nodup_append {e : Key × Item} {more : Entries}
    (hkeys : ((es ++ e :: more).map (·.1.text)).Nodup) : es.get? e.1.text = none := by
  rw [get?_eq_none_iff]
  intro e' he'
  rw [List.map_append, List.nodup_append] at hkeys
  exact hkeys.2.2 _ (List.mem_map_of_mem he') _ (List.mem_map_of_mem List.mem_cons_self)

end Entries

/-! ## Writing the parts -/

section Members

variable {es : Entries} {key member : Key} {item : Item} {span : Span} {inner : Entries}

/-- A dotted line puts its member into the table of its key. -/
lemma write_dotted (hnew : es.get? key.text = none) (hmember : inner.get? member.text = none)
    (place : Span) :
    Line.write { root := es ++ [(key, .table span .dotted inner)] }
        (.assignment [⟨key.text, place⟩] member item)
      = some { root := es ++ [(key, .table span .dotted (inner ++ [(member, item)]))] } := by
  rw [Line.write, Entries.inside, Entries.assign, Entries.get?_concat hnew]
  simp [Entries.assign, hmember, Entries.modify_concat hnew]

/-- Under a header a line puts its member into the table of that header. -/
lemma write_underHeader (hnew : es.get? key.text = none) (hmember : inner.get? member.text = none) :
    Line.write { root := es ++ [(key, .table span .header inner)], header := [key] }
        (.assignment [] member item)
      = some { root := es ++ [(key, .table span .header (inner ++ [(member, item)]))],
               header := [key] } := by
  rw [Line.write, Entries.inside, Entries.get?_concat hnew]
  simp [Entries.within, Entries.inside, Entries.assign, hmember, Entries.modify_concat hnew]

/-- Lines that each put one member behind the members there are. -/
lemma foldlM_write_members {α : Type} {line : α → Line} (entry : α → Key × Item)
    (progress : Entries → Progress)
    (hline : ∀ a inner, Entries.get? inner (entry a).1.text = none →
      (line a).write (progress inner) = some (progress (inner ++ [entry a])))
    (as : List α) (inner : Entries)
    (hkeys : ((inner ++ as.map entry).map (·.1.text)).Nodup) :
    (as.map line).foldlM Line.write (progress inner) = some (progress (inner ++ as.map entry)) := by
  induction as generalizing inner with
  | nil => simp
  | cons a as ih =>
    rw [List.map_cons] at hkeys
    have hmember : inner.get? (entry a).1.text = none := Entries.get?_of_nodup_append hkeys
    rw [List.map_cons, List.foldlM_cons, hline a inner hmember, Option.bind_eq_bind,
      Option.bind_some, ih _ (by simpa using hkeys)]
    simp

/-- Dotted lines write their part of the table. -/
lemma foldlM_write_dotted (hnew : es.get? key.text = none) {first : Key × Item}
    {more : List (Span × Key × Item)}
    (hkeys : ((first :: more.map (·.2)).map (·.1.text)).Nodup) :
    (Part.dotted key first more).lines.foldlM Line.write { root := es }
      = some { root := es ++ [(Part.dotted key first more).entry] } := by
  have hfirst : Line.write { root := es } (.assignment [key] first.1 first.2)
      = some { root := es ++ [(key, .table key.span .dotted [first])] } := by
    rw [Line.write, Entries.inside, Entries.assign, hnew]
    rfl
  rw [Part.lines, List.foldlM_cons, hfirst]
  exact foldlM_write_members Prod.snd
    (fun inner => { root := es ++ [(key, .table key.span .dotted inner)] })
    (fun a _ hmember => write_dotted hnew hmember a.1) more [first] hkeys

/-- The lines under a header write their part of the table. -/
lemma foldlM_write_header (hnew : es.get? key.text = none) {header : List Key} {members : Entries}
    (hkeys : (members.map (·.1.text)).Nodup) :
    (Part.header span key members).lines.foldlM Line.write { root := es, header }
      = some { root := es ++ [(Part.header span key members).entry], header := [key] } := by
  have hheader : Line.write { root := es, header } (.header span [] key)
      = some { root := es ++ [(key, .table span .header [])], header := [key] } := by
    rw [Line.write, Entries.openTable, hnew]
    rfl
  have hmembers := foldlM_write_members id
    (fun inner => { root := es ++ [(key, .table span .header inner)], header := [key] })
    (fun _ _ hmember => write_underHeader hnew hmember) members [] (by simpa using hkeys)
  rw [Part.lines, List.foldlM_cons, hheader]
  simpa [Part.entry] using hmembers

end Members

/-- A part whose key is new leaves its entry behind. -/
lemma foldlM_write_part {part : Part} (hmembers : (part.members.map (·.1.text)).Nodup)
    {es : Entries} {header : List Key} (hnew : es.get? part.entry.1.text = none)
    (hroot : ¬ part.UnderHeader → header = []) :
    ∃ header', (¬ part.UnderHeader → header' = []) ∧
      part.lines.foldlM Line.write { root := es, header }
        = some { root := es ++ [part.entry], header := header' } := by
  cases part with
  | line key item =>
    obtain rfl : header = [] := hroot id
    replace hnew : es.get? key.text = none := hnew
    refine ⟨[], fun _ => rfl, ?_⟩
    simp [Part.lines, Part.entry, Line.write, Entries.inside, Entries.assign, hnew]
  | dotted key first more =>
    obtain rfl : header = [] := hroot id
    exact ⟨[], fun _ => rfl, foldlM_write_dotted hnew hmembers⟩
  | header span key members =>
    exact ⟨[key], fun hnone => absurd trivial hnone, foldlM_write_header hnew hmembers⟩

/-- Lines part by part write the table, if the keys differ and headers come last. -/
lemma foldlM_write_parts {parts : List Part} {es : Entries} {header : List Key}
    (hkeys : ((es ++ parts.map Part.entry).map (·.1.text)).Nodup)
    (hmembers : ∀ part ∈ parts, (part.members.map (·.1.text)).Nodup)
    (hlast : parts.Pairwise fun part later => part.UnderHeader → later.UnderHeader)
    (hroot : ∀ part ∈ parts, ¬ part.UnderHeader → header = []) :
    ∃ header', (parts.flatMap Part.lines).foldlM Line.write { root := es, header }
      = some { root := es ++ parts.map Part.entry, header := header' } := by
  -- What is carried from part to part: as long as one without a header is still to come, no header
  -- is in force.
  induction parts generalizing es header with
  | nil => exact ⟨header, by simp⟩
  | cons part parts ih =>
    rw [List.map_cons] at hkeys
    obtain ⟨hmember, hmembers⟩ := List.forall_mem_cons.mp hmembers
    obtain ⟨hpart, hlast⟩ := List.pairwise_cons.mp hlast
    obtain ⟨header₁, hheader₁, hwrite⟩ := foldlM_write_part hmember
      (Entries.get?_of_nodup_append hkeys) (hroot part List.mem_cons_self)
    have hroot₁ : ∀ later ∈ parts, ¬ later.UnderHeader → header₁ = [] := by
      intro later hlater hnone
      exact hheader₁ fun hunder => hnone (hpart later hlater hunder)
    have hkeys₁ : (((es ++ [part.entry]) ++ parts.map Part.entry).map (·.1.text)).Nodup := by
      rwa [List.append_assoc]
    obtain ⟨header', hrest⟩ := ih hkeys₁ hmembers hlast hroot₁
    refine ⟨header', ?_⟩
    rw [List.flatMap_cons, List.foldlM_append, hwrite, Option.bind_eq_bind, Option.bind_some, hrest]
    simp

/-- **A document may write each of its tables in any of the three ways.**  Its parts leave their
entries behind, in their order. -/
theorem parse?_parts {document : String} {parts : List Part} (h : Layout parts)
    (hlines : documentLines? document = some (parts.flatMap Part.lines)) :
    parse? document = some (parts.map Part.entry) := by
  have hkeys : ((([] : Entries) ++ parts.map Part.entry).map (·.1.text)).Nodup := by
    rw [List.nil_append, List.map_map]
    exact h.keys
  have hroot : ∀ part ∈ parts, ¬ part.UnderHeader → ([] : List Key) = [] := fun _ _ _ => rfl
  obtain ⟨header, hwrite⟩ := foldlM_write_parts hkeys h.members h.headersLast hroot
  rw [parse?_eq_lines, hlines, Option.bind_some, hwrite]
  rfl

end SourceFormat.Toml
