import Mathlib
import SourceFormat.Style.Store
import SourceFormat.Proofs.Files.Overwriting
import SourceFormat.Proofs.OptionFile.Buffering

/-!
# Option files on disk

An option file that is written to disk holds its whole text, or writing it is reported as a failure
and it holds a beginning of that text.  What was at its path before makes no difference to what it
holds: a longer file is cut to nothing before the first byte is written.

* `writeOut_eq_ok_iff`: a file is written to its end exactly if there is room for its whole text and
  the system keeps it.
* `save_eq_ok_iff`: which paths take an option file, and what they lead to then.  A device takes
  bytes but keeps none, so no option file is ever saved to one.
-/

namespace SourceFormat

/-- The system takes so many bytes and keeps them. -/
structure Disk.Keeps (d : Disk) (n : ℕ) : Prop where
  room : ∀ room, d.room = some room → n ≤ room
  sync : d.sync = .ok ()

namespace OptionFile

variable {f : OptionFile} {disk : Disk} {t t' : FileTree} {p : Path} {l : Location}
  {executable : Bool}

/-! ## What the file holds -/

/-- Everything arrives in an empty file exactly if there is room for it. -/
lemma writeTo_sink_eq_ok_iff (disk : Disk) (f : OptionFile) :
    (f.writeTo disk.sink).1 = .ok () ↔
      ∀ room, disk.room = some room → (Utf8.encode f.render).length ≤ room := by
  rw [writeTo_eq_ok_iff f (Sink.hasRoom_zero rfl)]
  simp [Sink.HasRoom, Disk.sink]

/-- A file is written out if the disk has room for its rendering, and keeps it. -/
lemma writeOut_eq_ok_iff (disk : Disk) (f : OptionFile) :
    (f.writeOut disk).1 = .ok () ↔ disk.Keeps (Utf8.encode f.render).length := by
  have hroom := writeTo_sink_eq_ok_iff disk f
  show (f.writeTo disk.sink).1.bind _ = .ok () ↔ _
  cases hanswer : (f.writeTo disk.sink).1 with
  | error e =>
    rw [hanswer] at hroom
    exact iff_of_false nofun fun h => by cases hroom.mpr h.room
  | ok => exact ⟨fun h => ⟨hroom.mp hanswer, h⟩, fun h => h.sync⟩

/-- A file that was written to its end holds the text. -/
lemma held_of_writeOut (h : (f.writeOut disk).1 = .ok ()) :
    (f.writeOut disk).2 = Utf8.encode f.render := by
  have htaken := (writeTo_sink_eq_ok_iff disk f).mpr ((writeOut_eq_ok_iff disk f).mp h).room
  exact held_of_writeTo htaken

/-- In any case the file holds a beginning of the text. -/
lemma held_writeOut_isPrefix (disk : Disk) (f : OptionFile) :
    (f.writeOut disk).2 <+: Utf8.encode f.render :=
  held_writeTo_isPrefix f disk.sink

/-- No device keeps what is written to it. -/
lemma writeOut_device (d : Device) : (f.writeOut (disk.under (some (.device d)))).1 ≠ .ok () := by
  intro h
  have hsync := ((writeOut_eq_ok_iff _ f).mp h).sync
  cases d <;> cases hsync

/-! ## Where the file is -/

/-- What is left at a path behind an attempt to save an option file there. -/
lemma save_of_receives (h : t.Receives p l executable) (disk : Disk) (f : OptionFile) :
    f.save disk t p =
      (t.set l (.file (f.writeOut disk).2 executable), (f.writeOut disk).1) :=
  FileTree.overwrite_of_receives h disk f.writeOut

/-- An option file is saved to plain files alone. -/
lemma receives_of_save (h : (f.save disk t p).2 = .ok ()) :
    ∃ l executable, t.Receives p l executable := by
  have hspec := FileTree.overwrites_overwrite t disk p f.writeOut
  rw [← save] at hspec
  generalize f.save disk t p = r at hspec h
  cases hspec with
  | refused | busy => cases h
  | swallowed _ hanswer => exact absurd (hanswer h) (writeOut_device _)
  | received hreceives => exact ⟨_, _, hreceives⟩

/-- Which paths take an option file, and what they lead to then. -/
theorem save_eq_ok_iff : f.save disk t p = (t', .ok ()) ↔
    disk.Keeps (Utf8.encode f.render).length ∧
      ∃ l executable, t.Receives p l executable ∧
        t' = t.set l (.file (Utf8.encode f.render) executable) := by
  constructor
  · intro h
    obtain ⟨l, executable, hreceives⟩ := receives_of_save (congrArg Prod.snd h)
    rw [save_of_receives hreceives, Prod.mk.injEq] at h
    obtain ⟨rfl, hok⟩ := h
    exact ⟨(writeOut_eq_ok_iff disk f).mp hok, l, executable, hreceives,
      by rw [held_of_writeOut hok]⟩
  · rintro ⟨hkeeps, l, executable, hreceives, rfl⟩
    have hok := (writeOut_eq_ok_iff disk f).mpr hkeeps
    rw [save_of_receives hreceives, hok, held_of_writeOut hok]

end OptionFile

end SourceFormat
