import Mathlib
import SourceFormat.Files.Access

/-!
# What a path leads to when files change

Which location a path leads to depends on the directories alone.  So whoever writes, creates or
removes a plain file leaves every path leading where it led, and changes what is at one location.

* `locate_eq_ok_iff`: trees with the same directories agree on where paths lead.
* `find_set`, `existsAt_unset`: what a path leads to behind a change at its location.
* `locate_unique`: where a path leads is spelled out by its names, whatever is there.
* `locate_of_writable`: what can be opened for writing.
-/

namespace SourceFormat.FileTree

variable {t t' : FileTree} {p : Path} {l k : Location} {n : Node}

/-! ## What is at a location -/

@[simp] lemma node?_nil (t : FileTree) : t.node? [] = some .directory := by
  simp [node?]

/-- Below the root a node is the first one that is listed for its place. -/
lemma node?_eq_find? (h : l ≠ []) :
    t.node? l = (t.nodes.find? (·.1 = l)).map (·.2) := by
  simp [node?, h]

/-- What has been put somewhere is there. -/
lemma node?_set_self (h : l ≠ []) (n : Node) : (t.set l n).node? l = some n := by
  simp [node?_eq_find? h, set]

/-- Taking away what is at one location leaves what is at the others. -/
lemma find?_filter_of_ne (h : k ≠ l) (nodes : List (Location × Node)) :
    (nodes.filter (·.1 ≠ l)).find? (·.1 = k) = nodes.find? (·.1 = k) := by
  rw [List.find?_filter]
  congr 1
  funext e
  by_cases he : e.1 = k <;> simp [he, h]

/-- What has been put somewhere changes nothing elsewhere. -/
lemma node?_set_of_ne (h : k ≠ l) (n : Node) : (t.set l n).node? k = t.node? k := by
  by_cases hk : k = []
  · simp [hk]
  · rw [node?_eq_find? hk, node?_eq_find? hk, set, List.find?_cons_of_neg (by simp [Ne.symm h]),
      find?_filter_of_ne h]

/-- What has been taken away is gone. -/
lemma node?_unset_self (h : l ≠ []) : (t.unset l).node? l = none := by
  simp [node?_eq_find? h, unset]

/-- What has been taken away changes nothing elsewhere. -/
lemma node?_unset_of_ne (h : k ≠ l) : (t.unset l).node? k = t.node? k := by
  by_cases hk : k = []
  · simp [hk]
  · rw [node?_eq_find? hk, node?_eq_find? hk, unset, find?_filter_of_ne h]

/-- What was put where nothing was can be taken away without a trace. -/
lemma unset_set (h : l ≠ []) (hn : t.node? l = none) : (t.set l n).unset l = t := by
  have hkept : t.nodes.filter (·.1 ≠ l) = t.nodes := by
    rw [List.filter_eq_self]
    intro e he
    rw [node?_eq_find? h, Option.map_eq_none_iff, List.find?_eq_none] at hn
    simpa using hn e he
  simp only [unset, set, List.filter_cons_of_neg, ne_eq, not_true_eq_false, decide_false,
    Bool.false_eq_true, not_false_eq_true]
  rw [hkept, hkept]

/-! ## Where paths lead -/

/-- The trees have the same directories, and relative paths start in the same one. -/
structure SameDirectories (t t' : FileTree) : Prop where
  workingDirectory : t'.workingDirectory = t.workingDirectory
  node? : ∀ l, t'.node? l = some .directory ↔ t.node? l = some .directory

/-- A tree has the same directories as itself. -/
lemma SameDirectories.refl (t : FileTree) : SameDirectories t t := ⟨rfl, fun _ => Iff.rfl⟩

/-- A tree with something other than a directory in the place of something other than a
directory. -/
lemma sameDirectories_set (h : t.node? l ≠ some .directory) (hn : n ≠ .directory) :
    SameDirectories t (t.set l n) where
  workingDirectory := rfl
  node? k := by
    by_cases hk : k = l
    · subst hk
      have hne : k ≠ [] := by
        rintro rfl
        exact h (node?_nil t)
      simp [node?_set_self hne, hn, h]
    · rw [node?_set_of_ne hk]

/-- Taking a file away changes no directory. -/
lemma sameDirectories_unset (h : t.node? l ≠ some .directory) :
    SameDirectories t (t.unset l) where
  workingDirectory := rfl
  node? k := by
    by_cases hk : k = l
    · subst hk
      have hne : k ≠ [] := by
        rintro rfl
        exact h (node?_nil t)
      simp [node?_unset_self hne, h]
    · rw [node?_unset_of_ne hk]

/-- One name of a path, looked up in a directory. -/
lemma walk_cons_of_directory {piece : Bytes} {rest : List Bytes}
    (h : t.node? l = some .directory) : t.walk l (piece :: rest) =
      if piece = [] ∨ piece = [Path.dot] then t.walk l rest
      else if piece = [Path.dot, Path.dot] then t.walk l.dropLast rest
      else if maxNameLength < piece.length then .error .nameTooLong
      else t.walk (l ++ [piece]) rest := by
  rw [walk, h]

/-- No walk goes on from what is no directory. -/
lemma walk_cons_of_not_directory {piece : Bytes} {rest : List Bytes}
    (h : t.node? l ≠ some .directory) : t.walk l (piece :: rest) ≠ .ok k := by
  unfold walk
  split
  · simp
  · rename_i hd
    exact absurd hd h
  · simp

/-- A walk ends at a place if it does so in every tree with the same directories. -/
lemma walk_eq_ok_iff (h : SameDirectories t t') (pieces : List Bytes) :
    ∀ here, t'.walk here pieces = .ok l ↔ t.walk here pieces = .ok l := by
  induction pieces with
  | nil => exact fun here => Iff.rfl
  | cons piece rest ih =>
    intro here
    by_cases hd : t.node? here = some .directory
    · rw [walk_cons_of_directory hd, walk_cons_of_directory ((h.node? here).mpr hd)]
      split_ifs
      · exact ih here
      · exact ih here.dropLast
      · exact Iff.rfl
      · exact ih (here ++ [piece])
    · have hd' := fun hd' => hd ((h.node? here).mp hd')
      exact iff_of_false (walk_cons_of_not_directory hd') (walk_cons_of_not_directory hd)

/-- A path leads to a place if it does so in every tree with the same directories. -/
lemma locate_eq_ok_iff (h : SameDirectories t t') : t'.locate p = .ok l ↔ t.locate p = .ok l := by
  unfold locate
  rw [h.workingDirectory]
  split_ifs
  · exact Iff.rfl
  · exact Iff.rfl
  · exact Iff.rfl
  · exact walk_eq_ok_iff h _ _
  · exact walk_eq_ok_iff h _ _

/-- A walk that gets to its end is spelled out by its pieces, whatever tree it is in. -/
lemma walk_unique (pieces : List Bytes) :
    ∀ here, t.walk here pieces = .ok l → t'.walk here pieces = .ok k → k = l := by
  induction pieces with
  | nil =>
    intro here h h'
    exact (Except.ok.inj h').symm.trans (Except.ok.inj h)
  | cons piece rest ih =>
    intro here h h'
    by_cases hd : t.node? here = some .directory
    · by_cases hd' : t'.node? here = some .directory
      · rw [walk_cons_of_directory hd] at h
        rw [walk_cons_of_directory hd'] at h'
        split_ifs at h h' <;> exact ih _ h h'
      · exact absurd h' (walk_cons_of_not_directory hd')
    · exact absurd h (walk_cons_of_not_directory hd)

/-- A path leads to one location, as long as relative paths start in one directory. -/
lemma locate_unique (h : t'.workingDirectory = t.workingDirectory) (hl : t.locate p = .ok l)
    (hk : t'.locate p = .ok k) : k = l := by
  unfold locate at hl hk
  rw [h] at hk
  split_ifs at hl hk
  · exact walk_unique _ _ hl hk
  · exact walk_unique _ _ hl hk

/-- What a path finds is what stands where it leads. -/
lemma find_eq_ok_iff : t.find p = .ok (l, n) ↔ t.locate p = .ok l ∧ t.node? l = some n := by
  unfold find
  cases hl : t.locate p with
  | error e => simp [bind, Except.bind]
  | ok at_ =>
    simp only [bind, Except.bind, Except.ok.injEq]
    cases hn : t.node? at_ with
    | none =>
      simp only [reduceCtorEq, false_iff, not_and]
      rintro rfl
      simp [hn]
    | some found =>
      simp only [Except.ok.injEq, Prod.mk.injEq]
      constructor
      · rintro ⟨rfl, rfl⟩
        exact ⟨rfl, hn⟩
      · rintro ⟨rfl, hn'⟩
        exact ⟨rfl, Option.some.inj (hn.symm.trans hn')⟩

/-- There is something at a path if the path finds it. -/
lemma existsAt_eq_true_iff : t.existsAt p = true ↔ ∃ l n, t.find p = .ok (l, n) := by
  unfold existsAt
  cases t.find p with
  | error e => simp [Except.toOption]
  | ok found => simp [Except.toOption, Prod.exists.symm]

/-- There is nothing at a path if nothing stands where it leads. -/
lemma existsAt_eq_false_iff :
    t.existsAt p = false ↔ ∀ l, t.locate p = .ok l → t.node? l = none := by
  rw [← Bool.not_eq_true, existsAt_eq_true_iff]
  constructor
  · intro h l hl
    cases hn : t.node? l with
    | none => rfl
    | some n => exact absurd ⟨l, n, find_eq_ok_iff.mpr ⟨hl, hn⟩⟩ h
  · rintro h ⟨l, n, hfind⟩
    obtain ⟨hl, hn⟩ := find_eq_ok_iff.mp hfind
    rw [h l hl] at hn
    cases hn

/-- A path finds what has been put where it leads. -/
lemma find_set (hl : t.locate p = .ok l) (h : t.node? l ≠ some .directory)
    (hn : n ≠ .directory) : (t.set l n).find p = .ok (l, n) := by
  have hne : l ≠ [] := by
    rintro rfl
    exact h (node?_nil t)
  exact find_eq_ok_iff.mpr
    ⟨(locate_eq_ok_iff (sameDirectories_set h hn)).mpr hl, node?_set_self hne n⟩

/-- What has been taken away is not there any more. -/
lemma existsAt_unset (hl : t.locate p = .ok l) (h : t.node? l ≠ some .directory) :
    (t.unset l).existsAt p = false := by
  have hne : l ≠ [] := by
    rintro rfl
    exact h (node?_nil t)
  rw [existsAt_eq_false_iff]
  intro k hk
  have hk' := (locate_eq_ok_iff (sameDirectories_unset h)).mp hk
  obtain rfl := Except.ok.inj (hl.symm.trans hk')
  exact node?_unset_self hne

/-- A file that is found can be removed, and nothing else goes with it. -/
lemma removeFile_eq_ok (hfind : t.find p = .ok (l, n)) (hn : n ≠ .directory) :
    t.removeFile p = .ok (t.unset l) := by
  simp [removeFile, hfind, hn, bind, Except.bind]

/-- What is found at a path holds what it holds, whether or not the program may read it. -/
lemma contents_eq (hfind : t.find p = .ok (l, n)) : t.contents p = n.contents := by
  simp [contents, hfind, bind, Except.bind]

/-- A plain file holds its bytes. -/
lemma contents_eq_ok {bs : Bytes} {executable : Bool}
    (hfind : t.find p = .ok (l, .file bs executable)) : t.contents p = .ok bs :=
  contents_eq hfind

/-- What the program may read is read as it is. -/
lemma read_eq (hfind : t.find p = .ok (l, n)) (hreadable : l ∉ t.unreadable) :
    t.read p = n.contents := by
  simp [read, hfind, hreadable, bind, Except.bind]

/-- Only what is there can be read, and what is read is what it holds. -/
lemma find_of_read {bs : Bytes} (h : t.read p = .ok bs) :
    ∃ l n, t.find p = .ok (l, n) ∧ n.contents = .ok bs := by
  unfold read at h
  cases hfind : t.find p with
  | error e => simp [hfind, bind, Except.bind] at h
  | ok found =>
    simp only [hfind, bind, Except.bind] at h
    split_ifs at h
    exact ⟨found.1, found.2, rfl, h⟩

/-! ## Opening for writing -/

/-- What can be opened for writing is no directory and is not locked. -/
lemma locate_of_writable {old : Option Node} (h : t.writable p = .ok (l, old)) :
    t.locate p = .ok l ∧ t.node? l = old ∧ old ≠ some .directory ∧ l ∉ t.unwritable := by
  unfold writable at h
  split at h
  · split at h
    · cases h
    · split at h <;> cases h
  · split at h
    · cases h
    · rename_i at_ hl
      split at h
      · cases h
      · rename_i hne
        split_ifs at h with hopen
        cases h
        exact ⟨hl, rfl, hne, hopen⟩

/-- A path that can be written does not ask for a directory. -/
lemma asksForDirectory_of_writable {old : Option Node} (h : t.writable p = .ok (l, old)) :
    asksForDirectory p = false := by
  by_contra hasks
  rw [Bool.not_eq_false] at hasks
  rw [writable, if_pos hasks] at h
  split at h
  · cases h
  · split at h <;> cases h

/-- Where nothing is and a file can be, a path can be opened for writing. -/
lemma writable_of_vacant (hasks : asksForDirectory p = false) (hl : t.locate p = .ok l)
    (hn : t.node? l = none) (hopen : l ∉ t.unwritable) : t.writable p = .ok (l, none) := by
  simp [writable, hasks, hl, hn, hopen]

end SourceFormat.FileTree
