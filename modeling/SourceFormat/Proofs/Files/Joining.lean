import Mathlib
import SourceFormat.Proofs.Files.Reaching

/-!
# How a path ends

A path to a name in a directory leads to that name and nowhere else: whatever the directory is
called, the last name of the location is the one that was put behind it.  A path that ends in a
slash leads to a directory, if it leads anywhere.
-/

namespace SourceFormat

namespace Path

/-- Whether some bytes are a name that a directory can hold. -/
structure IsName (name : Bytes) : Prop where
  slash : slash ∉ name
  nonempty : name ≠ []
  ne_here : name ≠ [dot]
  ne_up : name ≠ [dot, dot]

/-- Bytes without a slash are one piece. -/
lemma cut_of_notMem {bs : Bytes} (h : slash ∉ bs) : cut bs = [bs] := by
  induction bs with
  | nil => rfl
  | cons b rest ih =>
    rw [List.mem_cons, not_or] at h
    rw [cut, if_neg (Ne.symm h.1), ih h.2]

/-- There is always a piece, be it an empty one. -/
lemma cut_ne_nil (bs : Bytes) : cut bs ≠ [] := by
  cases bs with
  | nil => simp [cut]
  | cons b rest =>
    rw [cut]
    split
    · simp
    · split <;> simp

/-- A slash cuts. -/
lemma cut_append_slash (bs bs' : Bytes) : cut (bs ++ slash :: bs') = cut bs ++ cut bs' := by
  induction bs with
  | nil => simp [cut]
  | cons b rest ih =>
    rw [List.cons_append, cut, cut]
    split
    · rw [ih, List.cons_append]
    · obtain ⟨piece, pieces, hcut⟩ := List.exists_cons_of_ne_nil (cut_ne_nil rest)
      rw [ih, hcut]
      rfl

/-- The last piece of a path to a name in a directory is that name. -/
lemma cut_join {name : Bytes} (h : slash ∉ name) (directory : Path) :
    ∃ pieces, cut (directory.join name).bytes = pieces ++ [name] := by
  unfold join
  split
  · rename_i hend
    rcases hend with hempty | hslash
    · have hnil : directory.bytes = [] := List.isEmpty_iff.mp hempty
      exact ⟨[], by simp [hnil, cut_of_notMem h]⟩
    · obtain ⟨before, hbefore⟩ := List.getLast?_eq_some_iff.mp hslash
      refine ⟨cut before, ?_⟩
      rw [hbefore, List.append_assoc, List.singleton_append, cut_append_slash, cut_of_notMem h]
  · exact ⟨cut directory.bytes, by rw [cut_append_slash, cut_of_notMem h]⟩

end Path

namespace FileTree

variable {t : FileTree} {l : Location}

/-- A walk over more pieces is a walk from where the first ones lead. -/
lemma walk_append {pieces : List Bytes} (rest : List Bytes) :
    ∀ {here : Location}, t.walk here (pieces ++ rest) = .ok l →
      ∃ mid, t.walk here pieces = .ok mid ∧ t.walk mid rest = .ok l := by
  induction pieces with
  | nil => exact fun h => ⟨_, rfl, h⟩
  | cons piece pieces ih =>
    intro here h
    by_cases hd : t.node? here = some .directory
    · rw [List.cons_append, walk_cons_of_directory hd] at h
      rw [walk_cons_of_directory hd]
      split_ifs at h ⊢ <;> exact ih h
    · exact absurd h (walk_cons_of_not_directory hd)

/-- The location of a name in a directory ends in that name. -/
lemma getLast?_of_locate_join {name : Bytes} (hname : Path.IsName name) {directory : Path}
    (h : t.locate (directory.join name) = .ok l) : l.getLast? = some name := by
  obtain ⟨pieces, hcut⟩ := Path.cut_join hname.slash directory
  unfold locate at h
  split_ifs at h
  all_goals
    rw [hcut] at h
    obtain ⟨mid, -, hlast⟩ := walk_append [name] h
    by_cases hd : t.node? mid = some .directory
    · rw [walk_cons_of_directory hd, if_neg (by simp [hname.nonempty, hname.ne_here]),
        if_neg hname.ne_up] at hlast
      split at hlast
      · cases hlast
      · cases hlast
        simp
    · exact absurd hlast (walk_cons_of_not_directory hd)

/-- A path that leads to something other than a directory does not ask for one. -/
lemma asksForDirectory_of_find {p : Path} {n : Node} (hfind : t.find p = .ok (l, n))
    (hn : n ≠ .directory) : asksForDirectory p = false := by
  obtain ⟨hl, hnode⟩ := find_eq_ok_iff.mp hfind
  rw [asksForDirectory, decide_eq_false_iff_not]
  intro hslash
  obtain ⟨before, hbefore⟩ := List.getLast?_eq_some_iff.mp hslash
  have hcut : Path.cut p.bytes = Path.cut before ++ [[]] := by
    rw [hbefore, Path.cut_append_slash]
    rfl
  unfold locate at hl
  split_ifs at hl
  all_goals
    rw [hcut] at hl
    obtain ⟨mid, -, hlast⟩ := walk_append [[]] hl
    by_cases hd : t.node? mid = some .directory
    · rw [walk_cons_of_directory hd, if_pos (.inl rfl)] at hlast
      cases hlast
      rw [hnode] at hd
      exact hn (Option.some.inj hd)
    · exact absurd hlast (walk_cons_of_not_directory hd)

/-- A file that is there can be opened for writing if it is not locked. -/
lemma writable_of_file {p : Path} {before : Bytes} {executable : Bool}
    (hfind : t.find p = .ok (l, .file before executable)) (hopen : l ∉ t.unwritable) :
    t.writable p = .ok (l, some (.file before executable)) := by
  obtain ⟨hl, hn⟩ := find_eq_ok_iff.mp hfind
  simp [writable, asksForDirectory_of_find hfind, hl, hn, hopen]

/-- A path to a name does not ask for a directory. -/
lemma asksForDirectory_join {name : Bytes} (hname : Path.IsName name) (directory : Path) :
    asksForDirectory (directory.join name) = false := by
  have hlast : (directory.join name).bytes.getLast? = name.getLast? := by
    obtain ⟨b, rest, rfl⟩ := List.exists_cons_of_ne_nil hname.nonempty
    unfold Path.join
    split <;> simp [List.getLast?_append, List.getLast?_cons]
  rw [asksForDirectory, hlast, decide_eq_false_iff_not]
  exact fun h => hname.slash (List.mem_of_getLast? h)

end FileTree

end SourceFormat
