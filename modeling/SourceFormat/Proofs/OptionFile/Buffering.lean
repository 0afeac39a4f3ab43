import Mathlib
import SourceFormat.OptionFile.Sink
import SourceFormat.Proofs.Files.Sinks

/-!
# What a sink holds behind a write

An option file is written in pieces, through a buffer, to a sink that may take a part of what it is
offered.  What has been written so far is what the sink holds together with what the buffer holds
(`BufferedWriter.written`).  Handing over the buffer does not change it, whether or not the sink
takes everything, and every piece that is accepted is added at its end; so whatever a writer leaves
in a sink is the beginning of what it was given, and a writer that reports success has left all of
it there.

* `held_of_writeTo`: when the writer reports success, the sink has taken the whole text, and nothing
  else behind what it held before.
* `held_writeTo_isPrefix`: in any case the sink has taken a beginning of the text.
* `reports_of_writeTo`: a failure is the sink's own, if it gives one.
* `writeTo_eq_ok_iff`: the writer reports success to those sinks that have room for the whole text,
  in however small steps they take it, and to no others.
-/

namespace SourceFormat

namespace Sink

/-! ## What is reported -/

/-- What a writer may report of a sink that refuses bytes: the failure of the sink, or a text of its
own if the sink has none. -/
def Reports (s : Sink) (e : SystemError) : Prop :=
  s.refusal = some e ∨ s.refusal = none ∧
    (e = .other BufferedWriter.unflushed ∨ e = .other unwritten)

variable {s s' : Sink} {left : Bytes} {text : String} {e : SystemError}

/-- A sink that fills itself refuses with the same words as before. -/
lemma Fills.reports_iff (h : Fills s s') : s'.Reports e ↔ s.Reports e := by
  rw [Reports, Reports, h.refusal]

/-- What is reported of what was left over is the failure of the sink, or a text of the writer. -/
lemma reports_of_report (h : s.report left text = .error e)
    (htext : text = BufferedWriter.unflushed ∨ text = unwritten) :
    s.Reports e := by
  unfold report at h
  split_ifs at h
  rw [Except.error.injEq] at h
  cases hrefusal : s.refusal with
  | some e' =>
    rw [hrefusal, Option.getD_some] at h
    exact .inl (by rw [hrefusal, h])
  | none =>
    rw [hrefusal, Option.getD_none] at h
    refine .inr ⟨hrefusal, ?_⟩
    rcases htext with rfl | rfl
    · exact .inl h.symm
    · exact .inr h.symm

end Sink

namespace BufferedWriter

variable {w w' : BufferedWriter} {e : SystemError}

/-- Everything that was written: what the sink has taken, and what is still to be handed over. -/
def written (w : BufferedWriter) : Bytes := w.sink.held ++ w.buffer

/-! ## Handing over the buffer -/

/-- A sink that refuses a part of the buffer leaves that part in it. -/
lemma written_flush (w : BufferedWriter) : w.flush.2.written = w.written :=
  Sink.held_offerAll_append_left w.sink w.buffer

/-- A flush only fills the sink. -/
lemma fills_flush (w : BufferedWriter) : w.sink.Fills w.flush.2.sink :=
  Sink.fills_offerAll w.sink w.buffer

/-- A flush that succeeds empties the buffer. -/
lemma buffer_of_flush (h : w.flush.1 = .ok ()) : w.flush.2.buffer = [] :=
  Sink.report_eq_ok_iff.mp h

/-- Behind a flush that succeeds the sink holds everything that was written. -/
lemma held_of_flush (h : w.flush.1 = .ok ()) : w.flush.2.sink.held = w.written := by
  rw [← written_flush, written, buffer_of_flush h, List.append_nil]

/-- A flush that fails reports why the sink has refused. -/
lemma reports_of_flush (h : w.flush.1 = .error e) : w.sink.Reports e :=
  (fills_flush w).reports_iff.mp (Sink.reports_of_report h (.inl rfl))

/-- What is offered once more behind a failure goes where it belongs. -/
lemma held_abandon_isPrefix (w : BufferedWriter) : w.abandon.held <+: w.written := by
  rw [← written_flush]
  exact List.prefix_append _ _

/-! ## One piece -/

/-- The ways in which a piece is written: into the buffer; into the buffer behind a flush, or not at
all if that fails; straight to the sink. -/
inductive Writes (w : BufferedWriter) (bs : Bytes) :
    Except SystemError Unit × BufferedWriter → Prop where
  | buffered : Writes w bs (.ok (), { w with buffer := w.buffer ++ bs })
  | refused {e : SystemError} (h : w.flush.1 = .error e) : Writes w bs (.error e, w.flush.2)
  | flushed (h : w.flush.1 = .ok ()) :
      Writes w bs (.ok (), { w.flush.2 with buffer := w.flush.2.buffer ++ bs })
  | direct (h : w.flush.1 = .ok ()) :
      Writes w bs
        ((w.flush.2.sink.offerAll bs).2.report (w.flush.2.sink.offerAll bs).1 Sink.unwritten,
          { w.flush.2 with sink := (w.flush.2.sink.offerAll bs).2 })

/-- Every piece is written in one of these ways. -/
lemma writes_write (w : BufferedWriter) (bs : Bytes) : Writes w bs (w.write bs) := by
  unfold write
  split
  · exact .buffered
  · cases hflush : w.flush with
    | mk answer after =>
      have h : w.flush.1 = answer := by rw [hflush]
      obtain rfl : w.flush.2 = after := by rw [hflush]
      cases answer with
      | error e => exact .refused h
      | ok =>
        simp only
        split
        · exact .flushed h
        · exact .direct h

variable {bs : Bytes} {r : Except SystemError Unit × BufferedWriter}

/-- To write a piece only fills the sink. -/
lemma Writes.fills (h : Writes w bs r) : w.sink.Fills r.2.sink := by
  cases h with
  | buffered => exact .refl _
  | refused | flushed => exact fills_flush w
  | direct => exact (fills_flush w).trans (Sink.fills_offerAll _ _)

/-- A piece that was written follows what was written before. -/
lemma Writes.written_eq (h : Writes w bs r) (hok : r.1 = .ok ()) :
    r.2.written = w.written ++ bs := by
  cases h with
  | buffered => simp [written]
  | refused => cases hok
  | flushed =>
    rw [← written_flush w]
    simp [written]
  | direct hflush =>
    have hheld := Sink.held_offerAll_append_left w.flush.2.sink bs
    rw [Sink.report_eq_ok_iff.mp hok, List.append_nil, held_of_flush hflush] at hheld
    simp only [written, buffer_of_flush hflush, List.append_nil]
    exact hheld

/-- A piece that was not written leaves a beginning of what was to be written. -/
lemma Writes.written_isPrefix (h : Writes w bs r) : r.2.written <+: w.written ++ bs := by
  cases h with
  | buffered => simp [written]
  | refused =>
    rw [written_flush]
    exact List.prefix_append _ _
  | flushed =>
    rw [← written_flush w]
    simp [written]
  | direct hflush =>
    rw [← held_of_flush hflush, ← Sink.held_offerAll_append_left]
    simp only [written, buffer_of_flush hflush, List.append_nil]
    exact List.prefix_append _ _

/-- A piece that is not written is reported as the sink refuses it. -/
lemma Writes.reports (h : Writes w bs r) (herror : r.1 = .error e) : w.sink.Reports e := by
  cases h with
  | buffered | flushed => cases herror
  | refused hflush =>
    cases herror
    exact reports_of_flush hflush
  | direct hflush =>
    exact (Writes.direct hflush).fills.reports_iff.mp (Sink.reports_of_report herror (.inr rfl))

/-- There is room for everything that was written and so many more bytes. -/
def HasRoom (w : BufferedWriter) (n : ℕ) : Prop :=
  ∀ room, w.sink.room = some room → w.written.length + n ≤ room

/-- A flush succeeds if there is room. -/
lemma flush_of_hasRoom {n : ℕ} (h : w.HasRoom n) : w.flush.1 = .ok () := by
  refine Sink.report_eq_ok_iff.mpr (Sink.offerAll_of_hasRoom fun room hroom => ?_)
  have := h room hroom
  simp only [written, List.length_append] at this
  omega

/-- A piece is written if there is room for it. -/
lemma Writes.of_hasRoom (h : Writes w bs r) (hroom : w.HasRoom bs.length) : r.1 = .ok () := by
  cases h with
  | buffered | flushed => rfl
  | refused hflush =>
    rw [flush_of_hasRoom hroom] at hflush
    cases hflush
  | direct hflush =>
    refine Sink.report_eq_ok_iff.mpr (Sink.offerAll_of_hasRoom fun room h => ?_)
    rw [held_of_flush hflush]
    exact hroom room ((fills_flush w).room ▸ h)

/-! ## Many pieces -/

variable {ps : List Bytes}

/-- Pieces are written one after the other, up to the first that fails. -/
lemma writePieces_cons (w : BufferedWriter) (p : Bytes) (rest : List Bytes) :
    w.writePieces (p :: rest) =
      match (w.write p).1 with
      | .error e => (.error e, (w.write p).2)
      | .ok () => (w.write p).2.writePieces rest := by
  rw [writePieces]
  cases w.write p with
  | mk answer after => cases answer <;> rfl

/-- To write pieces only fills the sink. -/
lemma fills_writePieces (ps : List Bytes) :
    ∀ w : BufferedWriter, w.sink.Fills (w.writePieces ps).2.sink := by
  induction ps with
  | nil => exact fun w => .refl _
  | cons p rest ih =>
    intro w
    have hfills := (writes_write w p).fills
    rw [writePieces_cons]
    split
    · exact hfills
    · exact hfills.trans (ih _)

/-- Pieces that were written follow what was written before. -/
lemma written_writePieces (h : (w.writePieces ps).1 = .ok ()) :
    (w.writePieces ps).2.written = w.written ++ ps.flatten := by
  induction ps generalizing w with
  | nil => simp [writePieces]
  | cons p rest ih =>
    rw [writePieces_cons] at h ⊢
    split at h
    · cases h
    · rename_i hok
      rw [ih h, (writes_write w p).written_eq hok, List.flatten_cons, List.append_assoc]

/-- Pieces leave a beginning of what was to be written, wherever it stopped. -/
lemma written_writePieces_isPrefix (ps : List Bytes) :
    ∀ w : BufferedWriter, (w.writePieces ps).2.written <+: w.written ++ ps.flatten := by
  induction ps with
  | nil => simp [writePieces]
  | cons p rest ih =>
    intro w
    rw [writePieces_cons, List.flatten_cons, ← List.append_assoc]
    split
    · exact (writes_write w p).written_isPrefix.trans (List.prefix_append _ _)
    · rename_i hok
      rw [← (writes_write w p).written_eq hok]
      exact ih _

/-- A failure among the pieces is reported as the sink refuses them. -/
lemma reports_of_writePieces (h : (w.writePieces ps).1 = .error e) : w.sink.Reports e := by
  induction ps generalizing w with
  | nil => cases h
  | cons p rest ih =>
    rw [writePieces_cons] at h
    split at h
    · rename_i herror
      cases h
      exact (writes_write w p).reports herror
    · exact (writes_write w p).fills.reports_iff.mp (ih h)

/-- Pieces are written if there is room for all of them. -/
lemma writePieces_of_hasRoom (h : w.HasRoom ps.flatten.length) : (w.writePieces ps).1 = .ok () := by
  induction ps generalizing w with
  | nil => rfl
  | cons p rest ih =>
    have hwrites := writes_write w p
    simp only [List.flatten_cons, List.length_append] at h
    have hok : (w.write p).1 = .ok () := hwrites.of_hasRoom fun room hroom => by
      have := h room hroom
      omega
    rw [writePieces_cons, hok]
    refine ih fun room hroom => ?_
    have := h room (hwrites.fills.room ▸ hroom)
    rw [hwrites.written_eq hok, List.length_append]
    omega

/-! ## To the end -/

/-- To write through is to write the pieces and to flush, or to give up at the first failure. -/
lemma writeThrough_eq (w : BufferedWriter) (ps : List Bytes) :
    w.writeThrough ps =
      match (w.writePieces ps).1 with
      | .error e => (.error e, (w.writePieces ps).2)
      | .ok () => (w.writePieces ps).2.flush := by
  rw [writeThrough]
  cases w.writePieces ps with
  | mk answer after => cases answer <;> rfl

/-- To write through only fills the sink. -/
lemma fills_writeThrough (w : BufferedWriter) (ps : List Bytes) :
    w.sink.Fills (w.writeThrough ps).2.sink := by
  have hfills := fills_writePieces ps w
  rw [writeThrough_eq]
  split
  · exact hfills
  · exact hfills.trans (fills_flush _)

/-- Behind a success nothing is left in the buffer. -/
lemma held_of_writeThrough (h : (w.writeThrough ps).1 = .ok ()) :
    (w.writeThrough ps).2.sink.held = w.written ++ ps.flatten := by
  rw [writeThrough_eq] at h ⊢
  split at h
  · cases h
  · rename_i hok
    rw [held_of_flush h, written_writePieces hok]

/-- To write through leaves a beginning of what was to be written, wherever it stopped. -/
lemma written_writeThrough_isPrefix (w : BufferedWriter) (ps : List Bytes) :
    (w.writeThrough ps).2.written <+: w.written ++ ps.flatten := by
  have hbegins := written_writePieces_isPrefix ps w
  rw [writeThrough_eq]
  split
  · exact hbegins
  · rwa [written_flush]

/-- A failure to write through is reported as the sink refuses it. -/
lemma reports_of_writeThrough (h : (w.writeThrough ps).1 = .error e) : w.sink.Reports e := by
  rw [writeThrough_eq] at h
  split at h
  · rename_i herror
    cases h
    exact reports_of_writePieces herror
  · exact (fills_writePieces ps w).reports_iff.mp (reports_of_flush h)

/-- Pieces are written through if there is room for all of them. -/
lemma writeThrough_of_hasRoom (h : w.HasRoom ps.flatten.length) :
    (w.writeThrough ps).1 = .ok () := by
  have hok := writePieces_of_hasRoom h
  rw [writeThrough_eq, hok]
  refine flush_of_hasRoom (n := 0) fun room hroom => ?_
  have := h room ((fills_writePieces ps w).room ▸ hroom)
  rwa [written_writePieces hok, List.length_append]

end BufferedWriter

namespace OptionFile

variable {f : OptionFile} {sink : Sink} {e : SystemError}

/-! ## Option files -/

/-- The bytes of a file, piece by piece. -/
def pieces (f : OptionFile) : List Bytes := (f.entries.flatMap Entry.pieces).map Utf8.encode

/-- However an entry is cut into pieces, they spell its text. -/
lemma Entry.flatMap_pieces (entry : Entry) :
    entry.pieces.flatMap String.toList = entry.text.toList := by
  cases entry with
  | comment text => simp [Entry.pieces, Entry.text]
  | option r =>
    simp [Entry.pieces, Entry.text, renderOption, List.flatMap_map]

/-- The pieces of a file together are the file as it is rendered. -/
lemma flatten_pieces (f : OptionFile) : f.pieces.flatten = Utf8.encode f.render := by
  have hentries : f.render.toList = (f.entries.flatMap Entry.pieces).flatMap String.toList := by
    simp [render, String.toList_join, ← Entry.flatMap_pieces, List.flatMap_assoc, List.flatMap_map]
  rw [Utf8.encode, Utf8.encodeChars, hentries, List.flatMap_assoc, pieces, ← List.flatMap_def]
  rfl

/-- A file is written as its pieces are, and then the buffer is dropped. -/
lemma writeTo_eq (f : OptionFile) (sink : Sink) : f.writeTo sink =
    match (BufferedWriter.writeThrough { sink } f.pieces).1 with
    | .error e => (.error e, (BufferedWriter.writeThrough { sink } f.pieces).2.abandon)
    | .ok () => (.ok (), (BufferedWriter.writeThrough { sink } f.pieces).2.sink) := by
  rw [writeTo, writeEntries, ← pieces]
  cases BufferedWriter.writeThrough { sink } f.pieces with
  | mk answer after => cases answer <;> rfl

/-- Whether a file is written is decided before the buffer is dropped. -/
lemma writeTo_fst (f : OptionFile) (sink : Sink) :
    (f.writeTo sink).1 = (BufferedWriter.writeThrough { sink } f.pieces).1 := by
  rw [writeTo_eq]
  split <;> rename_i h <;> rw [h]

/-- To write a file only fills the sink. -/
lemma fills_writeTo (f : OptionFile) (sink : Sink) : sink.Fills (f.writeTo sink).2 := by
  have hfills := BufferedWriter.fills_writeThrough { sink } f.pieces
  rw [writeTo_eq]
  split
  · exact hfills.trans (BufferedWriter.fills_flush _)
  · exact hfills

/-- A sink to which an option file was written has taken its text and nothing else. -/
theorem held_of_writeTo (h : (f.writeTo sink).1 = .ok ()) :
    (f.writeTo sink).2.held = sink.held ++ Utf8.encode f.render := by
  rw [writeTo_fst] at h
  rw [writeTo_eq, h]
  simp only
  rw [BufferedWriter.held_of_writeThrough h, flatten_pieces]
  simp [BufferedWriter.written]

/-- Whatever comes of it, the sink has taken a beginning of the text and nothing else. -/
theorem held_writeTo_isPrefix (f : OptionFile) (sink : Sink) :
    (f.writeTo sink).2.held <+: sink.held ++ Utf8.encode f.render := by
  have hbegins := BufferedWriter.written_writeThrough_isPrefix { sink } f.pieces
  simp only [BufferedWriter.written, List.append_nil, flatten_pieces] at hbegins
  rw [writeTo_eq]
  split
  · exact (BufferedWriter.held_abandon_isPrefix _).trans hbegins
  · exact (List.prefix_append _ _).trans hbegins

/-- A failure is the sink's own, if it gives one. -/
theorem reports_of_writeTo (h : (f.writeTo sink).1 = .error e) : sink.Reports e := by
  rw [writeTo_fst] at h
  exact BufferedWriter.reports_of_writeThrough h

/-- **A sink takes an option file to its end exactly if it has room for its whole text.** -/
theorem writeTo_eq_ok_iff (f : OptionFile) (hwithin : sink.HasRoom 0) :
    (f.writeTo sink).1 = .ok () ↔ sink.HasRoom (Utf8.encode f.render).length := by
  constructor
  · intro hok room hroom
    have hfills := fills_writeTo f sink
    have hroom' := hfills.within hwithin room (hfills.room.trans hroom)
    rw [held_of_writeTo hok, List.length_append] at hroom'
    omega
  · intro h
    rw [writeTo_fst]
    refine BufferedWriter.writeThrough_of_hasRoom fun room hroom => ?_
    have := h room hroom
    rw [flatten_pieces]
    simpa [BufferedWriter.written] using this

end OptionFile

end SourceFormat
