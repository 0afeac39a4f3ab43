import Mathlib
import SourceFormat.Proofs.Files.Joining

/-!
# The directory part of a path

What is left of a path without its last component leads to the directory that the path leads into.
Pieces that say nothing are dropped on the way there, from the end and only as long as they do not
stand at the beginning.

* `locate_trimEnd`: a path goes on leading where it led when such pieces are dropped.
* `locate_parent?`, `parent?_of_bare`: the directory part of a path with a slash leads to the
  directory; a bare name has the empty one.
* `locate_join`: a name in a directory is found in it, however the directory is spelled.
-/

namespace SourceFormat

namespace Path

variable {p : Path} {before kept pre piece name : Bytes}

/-! ## Pieces -/

/-- A name is read as the component of that name. -/
lemma IsName.ofPiece? (h : IsName name) : Component.ofPiece? name = some (.name name) := by
  rw [Component.ofPiece?, if_neg (by simp [h.nonempty, h.ne_here]), if_neg h.ne_up]

/-- Only the empty piece and the dot say nothing. -/
lemma ofPiece?_eq_none_iff : Component.ofPiece? piece = none ↔ piece = [] ∨ piece = [dot] := by
  unfold Component.ofPiece?
  split_ifs with hsilent hup <;> simp [hsilent]

/-- What stands before the last piece: nothing, or something that ends in a slash. -/
def BeforePiece (pre : Bytes) : Prop := pre = [] ∨ ∃ before, pre = before ++ [slash]

/-- A path ends in a piece with a slash, or nothing, before it. -/
lemma exists_last_piece (bs : Bytes) :
    ∃ pre piece, bs = pre ++ piece ∧ BeforePiece pre ∧ slash ∉ piece := by
  by_cases h : slash ∈ bs
  · obtain ⟨piece, before, hbs, hpiece⟩ := List.eq_append_cons_of_mem (List.mem_reverse.mpr h)
    refine ⟨before.reverse ++ [slash], piece.reverse, ?_, .inr ⟨_, rfl⟩, by simpa using hpiece⟩
    rw [← List.reverse_reverse bs, hbs]
    simp
  · exact ⟨[], bs, rfl, .inl rfl, h⟩

/-- What the last piece is, read from the end. -/
lemma takeWhile_reverse (hpre : BeforePiece pre) (hpiece : slash ∉ piece) :
    (pre ++ piece).reverse.takeWhile (· ≠ slash) = piece.reverse := by
  have hall : ∀ b ∈ piece.reverse, decide (b ≠ slash) = true := by
    intro b hb
    exact decide_eq_true (ne_of_mem_of_not_mem (List.mem_reverse.mp hb) hpiece)
  rw [List.reverse_append, List.takeWhile_append_of_pos hall]
  rcases hpre with rfl | ⟨before, rfl⟩ <;> simp

/-- What is left without the last piece, read from the end. -/
lemma drop_reverse (hpre : BeforePiece pre) :
    (kept ++ (pre ++ piece)).reverse.drop (min (pre ++ piece).length (piece.length + 1)) =
      (kept ++ pre.dropLast).reverse := by
  rcases hpre with rfl | ⟨before, rfl⟩
  · simp
  · have hmin : min (before ++ [slash] ++ piece).length (piece.length + 1) =
        (slash :: piece).reverse.length := by
      simp
    rw [hmin, List.append_assoc before, List.singleton_append, ← List.append_assoc,
      List.reverse_append, List.drop_left, List.dropLast_concat]

/-- Seen from the end, the body stands before what is kept. -/
lemma take_reverse (kept body : Bytes) :
    (kept ++ body).reverse.take ((kept ++ body).reverse.length - kept.length) = body.reverse := by
  rw [List.reverse_append, List.length_append, List.length_reverse, List.length_reverse,
    Nat.add_sub_cancel, ← List.length_reverse, List.take_left]

/-! ## Trimming -/

/-- What has to be kept is kept, whatever it ends in. -/
lemma trimEnd_kept (kept : Bytes) (fuel : ℕ) :
    trimEnd kept.length fuel kept.reverse = kept.reverse := by
  cases fuel with
  | zero => rfl
  | succ fuel => simp [trimEnd]

/-- One round of trimming. -/
lemma trimEnd_succ (hpre : BeforePiece pre) (hpiece : slash ∉ piece) (hbody : pre ++ piece ≠ [])
    (fuel : ℕ) : trimEnd kept.length (fuel + 1) (kept ++ (pre ++ piece)).reverse =
      if (Component.ofPiece? piece).isSome then (kept ++ (pre ++ piece)).reverse
      else trimEnd kept.length fuel (kept ++ pre.dropLast).reverse := by
  have hne : (pre ++ piece).reverse.isEmpty = false := by
    rw [List.isEmpty_eq_false_iff, ne_eq, List.reverse_eq_nil_iff]
    exact hbody
  simp only [trimEnd, take_reverse, hne, takeWhile_reverse hpre hpiece, List.reverse_reverse]
  simp only [List.length_reverse, drop_reverse hpre, Bool.false_eq_true, if_false]

/-- What trimming does not look at, with what follows it: the root, a `.` at the beginning, or
nothing, and then the first piece says something. -/
inductive Anchored : Bytes → Bytes → Prop where
  | root (body : Bytes) : Anchored [slash] body
  | here {body : Bytes} (h : body = [] ∨ body.head? = some slash) : Anchored [dot] body
  | nothing {body : Bytes} (h : ∃ first rest, cut body = first :: rest ∧
      (Component.ofPiece? first).isSome) : Anchored [] body

/-- Trimming does not come to the beginning. -/
lemma Anchored.dropLast (h : Anchored kept (pre ++ piece)) (hpre : BeforePiece pre)
    (hpiece : slash ∉ piece) (hbody : pre ++ piece ≠ [])
    (hsilent : Component.ofPiece? piece = none) : Anchored kept pre.dropLast := by
  cases h with
  | root => exact .root _
  | here h =>
    refine .here ?_
    have hslash := h.resolve_left hbody
    rcases hpre with rfl | ⟨before, rfl⟩
    · exact absurd (List.mem_of_head? hslash) hpiece
    · cases before with
      | nil => exact .inl rfl
      | cons b before =>
        rw [List.dropLast_concat]
        exact .inr (by simpa using hslash)
  | nothing h =>
    obtain ⟨first, rest, hcut, hfirst⟩ := h
    rcases hpre with rfl | ⟨before, rfl⟩
    · rw [List.nil_append, cut_of_notMem hpiece] at hcut
      cases hcut
      rw [hsilent] at hfirst
      cases hfirst
    · obtain ⟨first', rest', hbefore⟩ := List.exists_cons_of_ne_nil (cut_ne_nil before)
      rw [List.append_assoc, List.singleton_append, cut_append_slash, hbefore] at hcut
      cases hcut
      exact .nothing ⟨first, rest', by rw [List.dropLast_concat, hbefore], hfirst⟩

variable {body : Bytes}

/-- A body that hangs on nothing is not empty and does not begin with a slash. -/
lemma Anchored.head?_ne (h : Anchored [] body) : body ≠ [] ∧ body.head? ≠ some slash := by
  cases h with
  | nothing h =>
    obtain ⟨first, rest, hcut, hfirst⟩ := h
    cases body with
    | nil =>
      cases hcut
      cases hfirst
    | cons b body =>
      refine ⟨List.cons_ne_nil _ _, fun hslash => ?_⟩
      obtain rfl : b = slash := by simpa using hslash
      rw [cut, if_pos rfl] at hcut
      cases hcut
      cases hfirst

/-- What is anchored is not empty. -/
lemma Anchored.ne_nil (h : Anchored kept body) : kept ++ body ≠ [] := by
  cases h with
  | root | here => simp
  | nothing h => exact (Anchored.nothing h).head?_ne.1

/-- What trimming does not look at says where the path starts. -/
lemma Anchored.isAbsolute_iff (h : Anchored kept body) :
    isAbsolute ⟨kept ++ body⟩ = true ↔ kept = [slash] := by
  rw [isAbsolute, decide_eq_true_iff]
  cases h with
  | root => simp
  | here => simp [slash, dot]
  | nothing h => simpa using (Anchored.nothing h).head?_ne.2

/-- A piece alone that says nothing stands at the root. -/
lemma Anchored.eq_root (h : Anchored kept piece) (hpiece : slash ∉ piece) (hne : piece ≠ [])
    (hsilent : Component.ofPiece? piece = none) : kept = [slash] := by
  cases h with
  | root => rfl
  | here h => exact absurd (List.mem_of_head? (h.resolve_left hne)) hpiece
  | nothing h =>
    obtain ⟨first, rest, hcut, hfirst⟩ := h
    rw [cut_of_notMem hpiece] at hcut
    cases hcut
    rw [hsilent] at hfirst
    cases hfirst

/-! ## The directory part -/

/-- How many bytes at the beginning trimming does not look at. -/
def keep (p : Path) : ℕ :=
  if p.isAbsolute then 1 else if p.components.head? = some .here then 1 else 0

/-- A dot says nothing but at the very beginning. -/
lemma here_notMem_filterMap (pieces : List Bytes) :
    Component.here ∉ pieces.filterMap Component.ofPiece? := by
  intro h
  obtain ⟨piece, -, hpiece⟩ := List.mem_filterMap.mp h
  unfold Component.ofPiece? at hpiece
  split_ifs at hpiece <;> cases hpiece

/-- A relative path begins with the current directory if its first piece is a dot. -/
lemma head?_components_eq_here {first : Bytes} {rest : List Bytes} (hp : p.isAbsolute = false)
    (hcut : cut p.bytes = first :: rest) :
    p.components.head? = some .here ↔ first = [dot] := by
  simp only [components, hp, Bool.false_eq_true, if_false, hcut]
  split_ifs with h
  · simp [h]
  · refine iff_of_false (fun hhead => ?_) h
    have hmem := List.mem_of_head? hhead
    have hfirst : (Component.ofPiece? first).toList = [first].filterMap Component.ofPiece? := by
      cases hc : Component.ofPiece? first <;> simp [hc]
    rw [hfirst, ← List.filterMap_append] at hmem
    exact here_notMem_filterMap _ hmem

/-- The first piece is empty only if the path is, or begins with a slash. -/
lemma head?_of_cut_eq_nil_cons {bs : Bytes} {rest : List Bytes} (h : cut bs = [] :: rest) :
    bs = [] ∨ bs.head? = some slash := by
  cases bs with
  | nil => exact .inl rfl
  | cons b bs =>
    rw [cut] at h
    split at h
    · rename_i hb
      exact .inr (by rw [hb, List.head?_cons])
    · split at h <;> cases h

/-- The first piece is a dot only if the path is one, or begins with a dot and a slash. -/
lemma exists_of_cut_eq_dot_cons {bs : Bytes} {rest : List Bytes} (h : cut bs = [dot] :: rest) :
    ∃ bs', bs = dot :: bs' ∧ (bs' = [] ∨ bs'.head? = some slash) := by
  cases bs with
  | nil => cases h
  | cons b bs =>
    rw [cut] at h
    split at h
    · cases h
    · split at h
      · rename_i hnil
        exact absurd hnil (cut_ne_nil bs)
      · rename_i piece pieces hcut
        cases h
        exact ⟨bs, rfl, head?_of_cut_eq_nil_cons hcut⟩

/-- What stands before the last component of a path with a slash, up to that slash; the root keeps
its own. -/
def above (before : Bytes) : Bytes := if before = [] then [slash] else before

/-- A path that ends in a name behind a slash is cut there: what must be kept, what is above, and
the name. -/
lemma exists_anchored (hp : p.bytes = before ++ slash :: name) :
    ∃ kept pre, p.bytes = kept ++ (pre ++ name) ∧ BeforePiece pre ∧ p.keep = kept.length ∧
      Anchored kept pre.dropLast ∧ kept ++ pre.dropLast = above before := by
  by_cases habs : p.isAbsolute = true
  · have hkeep : p.keep = [slash].length := by rw [keep, if_pos habs, List.length_singleton]
    cases before with
    | nil => exact ⟨[slash], [], hp, .inl rfl, hkeep, .root _, rfl⟩
    | cons b before =>
      obtain rfl : b = slash := by simpa [isAbsolute, hp] using habs
      exact ⟨[slash], before ++ [slash], by simp [hp], .inr ⟨before, rfl⟩, hkeep, .root _,
        by simp [above]⟩
  · have habs : p.isAbsolute = false := by simpa using habs
    have hne : before ≠ [] := by
      rintro rfl
      simp [isAbsolute, hp] at habs
    obtain ⟨first, rest, hbefore⟩ := List.exists_cons_of_ne_nil (cut_ne_nil before)
    have hcut : cut p.bytes = first :: (rest ++ cut name) := by
      rw [hp, cut_append_slash, hbefore, List.cons_append]
    have hhere := head?_components_eq_here habs hcut
    -- a dot in front is kept; any other first piece says something, and nothing has to be kept
    by_cases hdot : first = [dot]
    · rw [hdot] at hbefore
      obtain ⟨rest', rfl, hrest⟩ := exists_of_cut_eq_dot_cons hbefore
      refine ⟨[dot], rest' ++ [slash], by simp [hp], .inr ⟨rest', rfl⟩, ?_, ?_, ?_⟩
      · rw [keep, habs, if_neg (by simp), if_pos (hhere.mpr hdot), List.length_singleton]
      · rw [List.dropLast_concat]
        exact .here hrest
      · rw [List.dropLast_concat, above, if_neg hne, List.singleton_append]
    · have hsays : (Component.ofPiece? first).isSome := by
        rw [Option.isSome_iff_ne_none, ne_eq, ofPiece?_eq_none_iff, not_or]
        refine ⟨?_, hdot⟩
        rintro rfl
        have hslash := (head?_of_cut_eq_nil_cons hbefore).resolve_left hne
        rw [isAbsolute, hp, List.head?_append, hslash] at habs
        simp at habs
      refine ⟨[], before ++ [slash], by simp [hp], .inr ⟨before, rfl⟩, ?_, ?_, ?_⟩
      · rw [keep, habs, if_neg (by simp), if_neg (hdot ∘ hhere.mp), List.length_nil]
      · rw [List.dropLast_concat]
        exact .nothing ⟨first, rest, hbefore, hsays⟩
      · rw [List.dropLast_concat, above, if_neg hne, List.nil_append]

/-- The last component of a path that ends in a name is that name. -/
lemma getLast?_components (hname : IsName name) {pieces : List Bytes}
    (hcut : cut p.bytes = pieces ++ [name]) : p.components.getLast? = some (.name name) := by
  have hlast : [name].filterMap Component.ofPiece? = [.name name] := by simp [hname.ofPiece?]
  unfold components
  split
  · rw [hcut, List.filterMap_append, hlast, ← List.cons_append, List.getLast?_concat]
  · rw [hcut]
    cases pieces with
    | nil => simp [hname.ne_here, hname.ofPiece?]
    | cons first rest =>
      simp only [List.cons_append]
      rw [List.filterMap_append, hlast, ← List.append_assoc, List.getLast?_concat]

/-- The directory part of a path, as it is worked out. -/
lemma parent?_eq (hname : IsName name) {pieces : List Bytes} (hcut : cut p.bytes = pieces ++ [name])
    (hp : p.bytes = kept ++ (pre ++ name)) (hpre : BeforePiece pre) (hkeep : p.keep = kept.length) :
    p.parent? = some ⟨(trimEnd kept.length (kept ++ pre.dropLast).length
      (kept ++ pre.dropLast).reverse).reverse⟩ := by
  have hbody : pre ++ name ≠ [] := by simp [hname.nonempty]
  have hrev : trimEnd kept.length p.bytes.length p.bytes.reverse =
      (kept ++ (pre ++ name)).reverse := by
    obtain ⟨fuel, hfuel⟩ : ∃ fuel, p.bytes.length = fuel + 1 :=
      Nat.exists_eq_add_one.mpr (List.length_pos_of_ne_nil (by simp [hp, hname.nonempty]))
    rw [hfuel, hp, trimEnd_succ hpre hname.slash hbody, if_pos (by simp [hname.ofPiece?])]
  unfold keep at hkeep
  simp only [parent?, getLast?_components hname hcut, hkeep, hrev, take_reverse,
    takeWhile_reverse hpre hname.slash]
  simp only [List.length_reverse, drop_reverse hpre]

/-- A bare name has the empty directory part. -/
lemma parent?_of_bare (hname : IsName p.bytes) : p.parent? = some ⟨[]⟩ := by
  have hcut : cut p.bytes = [] ++ [p.bytes] := by rw [cut_of_notMem hname.slash, List.nil_append]
  have habs : p.isAbsolute = false := by
    rw [isAbsolute, decide_eq_false_iff_not]
    exact fun h => hname.slash (List.mem_of_head? h)
  have hkeep : p.keep = ([] : Bytes).length := by
    rw [keep, habs, if_neg (by simp), if_neg, List.length_nil]
    exact fun h => hname.ne_here ((head?_components_eq_here habs hcut).mp h)
  exact parent?_eq hname hcut rfl (.inl rfl) hkeep

end Path

namespace FileTree

open SourceFormat.Path

variable {t : FileTree} {p d : Path} {l m : Location} {before name kept pre piece body : Bytes}

/-! ## Where trimmed paths lead -/

/-- A path leads somewhere if it is no broken path and the walk along its pieces ends. -/
lemma locate_eq_ok : t.locate p = .ok l ↔ 0 ∉ p.bytes ∧ p.bytes ≠ [] ∧
    p.bytes.length < maxPathLength ∧
      t.walk (if p.isAbsolute then [] else t.workingDirectory) (cut p.bytes) = .ok l := by
  unfold locate Path.isEmpty
  split_ifs <;> simp_all

/-- An empty piece leads nowhere else. -/
lemma walk_nil_cons {rest : List Bytes} (hd : t.node? m = some .directory) :
    t.walk m ([] :: rest) = t.walk m rest := by
  rw [walk_cons_of_directory hd, if_pos (.inl rfl)]

/-- A piece that says nothing leads nowhere. -/
lemma walk_concat_of_silent {pieces : List Bytes} {here : Location}
    (hsilent : Component.ofPiece? piece = none)
    (h : t.walk here (pieces ++ [piece]) = .ok l) : t.walk here pieces = .ok l := by
  obtain ⟨mid, hmid, hlast⟩ := walk_append [piece] h
  by_cases hd : t.node? mid = some .directory
  · rw [walk_cons_of_directory hd, if_pos (ofPiece?_eq_none_iff.mp hsilent)] at hlast
    cases hlast
    exact hmid
  · exact absurd hlast (walk_cons_of_not_directory hd)

/-- One piece less, if it says nothing. -/
lemma locate_dropLast (h : Anchored kept (pre ++ piece)) (hpre : BeforePiece pre)
    (hpiece : slash ∉ piece) (hbody : pre ++ piece ≠ []) (hsilent : Component.ofPiece? piece = none)
    (hl : t.locate ⟨kept ++ (pre ++ piece)⟩ = .ok l) :
    t.locate ⟨kept ++ pre.dropLast⟩ = .ok l := by
  obtain ⟨hzero, hne, hshort, hwalk⟩ := locate_eq_ok.mp hl
  simp only [List.mem_append, not_or] at hzero
  have hzero' : 0 ∉ kept ++ pre.dropLast := by
    rw [List.mem_append, not_or]
    exact ⟨hzero.1, fun h => hzero.2.1 (List.mem_of_mem_dropLast h)⟩
  have hshort' : (kept ++ pre.dropLast).length < maxPathLength := by
    simp only [List.length_append, List.length_dropLast] at hshort ⊢
    omega
  have h' := h.dropLast hpre hpiece hbody hsilent
  have habs : isAbsolute ⟨kept ++ pre.dropLast⟩ = isAbsolute ⟨kept ++ (pre ++ piece)⟩ := by
    rw [Bool.eq_iff_iff, h'.isAbsolute_iff, h.isAbsolute_iff]
  refine locate_eq_ok.mpr ⟨hzero', h'.ne_nil, hshort', ?_⟩
  rcases hpre with rfl | ⟨before, rfl⟩
  · -- only the root is left
    rw [List.nil_append] at h hwalk hbody
    obtain rfl := h.eq_root hpiece hbody hsilent
    have hcut : cut ([slash] ++ piece) = [[]] ++ [piece] := by
      rw [List.singleton_append, cut, if_pos rfl, cut_of_notMem hpiece, List.singleton_append]
    rw [if_pos (h.isAbsolute_iff.mpr rfl), hcut] at hwalk
    have hroot := walk_concat_of_silent hsilent hwalk
    rw [walk_nil_cons (node?_nil t)] at hroot
    cases hroot
    rw [if_pos (h'.isAbsolute_iff.mpr rfl)]
    show t.walk [] [[], []] = .ok []
    rw [walk_nil_cons (node?_nil t), walk_nil_cons (node?_nil t)]
    rfl
  · have hcut : cut (kept ++ (before ++ [slash] ++ piece)) = cut (kept ++ before) ++ [piece] := by
      rw [← cut_of_notMem hpiece, ← cut_append_slash]
      simp
    rw [hcut] at hwalk
    rw [habs, List.dropLast_concat]
    exact walk_concat_of_silent hsilent hwalk

/-- A path leads to the same place without the slashes and dots at its end. -/
lemma locate_trimEnd (fuel : ℕ) : ∀ {body : Bytes}, Anchored kept body →
    t.locate ⟨kept ++ body⟩ = .ok l →
      t.locate ⟨(trimEnd kept.length fuel (kept ++ body).reverse).reverse⟩ = .ok l := by
  induction fuel with
  | zero =>
    intro body _ hl
    rwa [trimEnd, List.reverse_reverse]
  | succ fuel ih =>
    intro body h hl
    by_cases hbody : body = []
    · rw [hbody, List.append_nil] at hl ⊢
      rwa [trimEnd_kept, List.reverse_reverse]
    · obtain ⟨pre, piece, rfl, hpre, hpiece⟩ := exists_last_piece body
      rw [trimEnd_succ hpre hpiece hbody]
      split_ifs with hsays
      · rwa [List.reverse_reverse]
      · have hsilent : Component.ofPiece? piece = none := by simpa using hsays
        exact ih (h.dropLast hpre hpiece hbody hsilent)
          (locate_dropLast h hpre hpiece hbody hsilent hl)

/-! ## What lies in a directory -/

/-- Whatever is there lies in a directory. -/
def IsTree (t : FileTree) : Prop :=
  ∀ l n, t.node? l = some n → t.node? l.dropLast = some .directory

/-- A tree whose nodes stand in directories is a tree. -/
lemma isTree_of_nodes (h : ∀ e ∈ t.nodes, t.node? e.1.dropLast = some .directory) : t.IsTree := by
  intro l n hn
  by_cases hl : l = []
  · rw [hl, List.dropLast_nil, node?_nil]
  · rw [node?_eq_find? hl] at hn
    obtain ⟨e, he, -⟩ := Option.map_eq_some_iff.mp hn
    have hkey : e.1 = l := by simpa using List.find?_some he
    rw [← hkey]
    exact h e (List.mem_of_find?_eq_some he)

/-- A walk goes on from where it has come to. -/
lemma walk_append_of_ok {pieces : List Bytes} (rest : List Bytes) :
    ∀ {here : Location}, t.walk here pieces = .ok m →
      t.walk here (pieces ++ rest) = t.walk m rest := by
  induction pieces with
  | nil =>
    intro here h
    cases h
    rfl
  | cons piece pieces ih =>
    intro here h
    by_cases hd : t.node? here = some .directory
    · rw [walk_cons_of_directory hd] at h
      rw [List.cons_append, walk_cons_of_directory hd]
      split_ifs at h ⊢ <;> exact ih h
    · exact absurd h (walk_cons_of_not_directory hd)

/-- A name leads into a directory, if it is not too long. -/
lemma walk_name (hname : IsName name) (hd : t.node? m = some .directory) :
    t.walk m [name] =
      if maxNameLength < name.length then .error .nameTooLong else .ok (m ++ [name]) := by
  rw [walk_cons_of_directory hd, if_neg (by simp [hname.nonempty, hname.ne_here]),
    if_neg hname.ne_up]
  rfl

/-- The last name of a path to something other than a directory, and the directory it is in. -/
lemma exists_name_of_walk (ht : t.IsTree) {pieces : List Bytes} {here : Location}
    (hpiece : slash ∉ piece) (h : t.walk here (pieces ++ [piece]) = .ok l) {n : Node}
    (hn : t.node? l = some n) (hfile : n ≠ .directory) :
    IsName piece ∧ t.walk here pieces = .ok l.dropLast ∧ t.node? l.dropLast = some .directory := by
  obtain ⟨mid, hmid, hlast⟩ := walk_append [piece] h
  by_cases hd : t.node? mid = some .directory
  · rw [walk_cons_of_directory hd] at hlast
    split_ifs at hlast with hsilent hup
    · cases hlast
      rw [hn] at hd
      exact absurd (Option.some.inj hd) hfile
    · cases hlast
      rw [ht _ _ hd] at hn
      exact absurd (Option.some.inj hn).symm hfile
    · rw [not_or] at hsilent
      cases hlast
      rw [List.dropLast_concat]
      exact ⟨⟨hpiece, hsilent.1, hsilent.2, hup⟩, hmid, hd⟩
  · exact absurd hlast (walk_cons_of_not_directory hd)

/-- A name in a directory is found in it, however the directory is spelled. -/
lemma locate_join (hl : t.locate d = .ok m) (hd : t.node? m = some .directory)
    (hname : IsName name) (hzero : 0 ∉ name) (hlong : name.length ≤ maxNameLength)
    (hshort : (d.join name).bytes.length < maxPathLength) :
    t.locate (d.join name) = .ok (m ++ [name]) := by
  obtain ⟨hzero', hne, -, hwalk⟩ := locate_eq_ok.mp hl
  obtain ⟨before, hbytes, hbefore, hhead, hmem⟩ : ∃ before,
      (d.join name).bytes = before ++ slash :: name ∧
      t.walk (if d.isAbsolute then [] else t.workingDirectory) (cut before) = .ok m ∧
      (before ++ [slash]).head? = d.bytes.head? ∧ 0 ∉ before := by
    by_cases hend : d.bytes.getLast? = some slash
    · obtain ⟨before, hd'⟩ := List.getLast?_eq_some_iff.mp hend
      refine ⟨before, by rw [join, if_pos (.inr hend), hd']; simp, ?_, by rw [hd'], ?_⟩
      · rw [hd', cut_append_slash] at hwalk
        exact walk_concat_of_silent rfl hwalk
      · rw [hd', List.mem_append, not_or] at hzero'
        exact hzero'.1
    · refine ⟨d.bytes, by rw [join, if_neg (by simp [isEmpty, hne, hend])], hwalk, ?_, hzero'⟩
      rw [List.head?_append_of_ne_nil _ hne]
  have habs : (d.join name).isAbsolute = d.isAbsolute := by
    rw [isAbsolute, isAbsolute, hbytes, ← hhead]
    cases before <;> simp
  refine locate_eq_ok.mpr ⟨?_, by simp [hbytes], hshort, ?_⟩
  · rw [hbytes, List.mem_append, List.mem_cons]
    simp [hmem, hzero, slash]
  · rw [hbytes, cut_append_slash, cut_of_notMem hname.slash, habs, walk_append_of_ok _ hbefore,
      walk_name hname hd, if_neg (by omega)]

/-- The slash leads to the root. -/
lemma locate_root : t.locate ⟨[slash]⟩ = .ok [] := by
  refine locate_eq_ok.mpr ⟨by decide, by decide, by decide, ?_⟩
  show t.walk [] [[], []] = .ok []
  rw [walk_nil_cons (node?_nil t), walk_nil_cons (node?_nil t)]
  rfl

/-- What stands before a name leads to the directory. -/
lemma locate_above (hp : p.bytes = before ++ slash :: name) (hl : t.locate p = .ok l)
    (hmid : t.walk (if p.isAbsolute then [] else t.workingDirectory) (cut before) = .ok m) :
    t.locate ⟨above before⟩ = .ok m := by
  obtain ⟨hzero, -, hshort, -⟩ := locate_eq_ok.mp hl
  by_cases hbefore : before = []
  · have habs : p.isAbsolute = true := by simp [isAbsolute, hp, hbefore]
    rw [habs, if_pos rfl, hbefore] at hmid
    have hcut : cut [] = [[]] := rfl
    rw [hcut, walk_nil_cons (node?_nil t)] at hmid
    cases hmid
    rw [above, if_pos hbefore, locate_root]
  · have habs : isAbsolute ⟨before⟩ = p.isAbsolute := by
      rw [isAbsolute, isAbsolute, hp, List.head?_append_of_ne_nil _ hbefore]
    rw [hp, List.mem_append, not_or] at hzero
    rw [hp, List.length_append] at hshort
    rw [above, if_neg hbefore]
    exact locate_eq_ok.mpr ⟨hzero.1, hbefore, by show before.length < _; omega, by rwa [habs]⟩

/-- **The directory part of a path leads to the directory.** -/
theorem locate_parent? (ht : t.IsTree) (hslash : slash ∈ p.bytes) (hl : t.locate p = .ok l)
    {n : Node} (hn : t.node? l = some n) (hfile : n ≠ .directory) :
    ∃ q, p.parent? = some q ∧ t.locate q = .ok l.dropLast := by
  obtain ⟨pre, name, hp, hpre, hpiece⟩ := exists_last_piece p.bytes
  obtain ⟨before, rfl⟩ : ∃ before, pre = before ++ [slash] := by
    refine hpre.resolve_left ?_
    rintro rfl
    rw [hp, List.nil_append] at hslash
    exact hpiece hslash
  rw [List.append_assoc, List.singleton_append] at hp
  have hcut : cut p.bytes = cut before ++ [name] := by
    rw [hp, cut_append_slash, cut_of_notMem hpiece]
  have hwalk := (locate_eq_ok.mp hl).2.2.2
  rw [hcut] at hwalk
  obtain ⟨hname, hmid, -⟩ := exists_name_of_walk ht hpiece hwalk hn hfile
  obtain ⟨kept, pre, hbytes, hpre', hkeep, hanchored, habove⟩ := exists_anchored hp
  refine ⟨_, parent?_eq hname hcut hbytes hpre' hkeep, locate_trimEnd _ hanchored ?_⟩
  rw [habove]
  exact locate_above hp hl hmid

end FileTree

end SourceFormat
