import SourceFormat.Files.Sink
import SourceFormat.OptionFile.Basic

/-!
# Writing an option file to a sink

Between an option file and the sink that it is written to stands a `BufferedWriter` that collects
small pieces, and a record is written in many of them: a refusal may therefore come up in the middle
of a record, between two records, or only when the buffer is handed over at the end, and all three
must be reported.
-/

namespace SourceFormat

/-- A sink behind a buffer of fixed capacity. -/
structure BufferedWriter where
  capacity : Nat := 8192
  buffer : Bytes := []
  sink : Sink

namespace BufferedWriter

/-- The report of a buffer that a sink refused without a failure of its own. -/
def unflushed : String := "failed to write the buffered data"

/-- Hand the buffer to the sink.  What the sink does not take stays in the buffer. -/
def flush (w : BufferedWriter) : Except SystemError Unit × BufferedWriter :=
  let (left, sink) := w.sink.offerAll w.buffer
  (sink.report left unflushed, { w with buffer := left, sink })

/-- Write a piece: into the buffer where it fits, else behind a flush, and straight to the sink if
it would fill the whole buffer. -/
def write (w : BufferedWriter) (bs : Bytes) : Except SystemError Unit × BufferedWriter :=
  if w.buffer.length + bs.length ≤ w.capacity ∧ bs.length < w.capacity then
    (.ok (), { w with buffer := w.buffer ++ bs })
  else
    match w.flush with
    | (.error e, w) => (.error e, w)
    | (.ok (), w) =>
      if bs.length < w.capacity then (.ok (), { w with buffer := w.buffer ++ bs })
      else
        let (left, sink) := w.sink.offerAll bs
        (sink.report left Sink.unwritten, { w with sink })

/-- Write pieces in order, up to the first refusal. -/
def writePieces : BufferedWriter → List Bytes → Except SystemError Unit × BufferedWriter
  | w, [] => (.ok (), w)
  | w, p :: rest =>
    match w.write p with
    | (.error e, w) => (.error e, w)
    | (.ok (), w) => writePieces w rest

/-- Write pieces in order and hand over what is in the buffer behind the last one. -/
def writeThrough (w : BufferedWriter) (ps : List Bytes) :
    Except SystemError Unit × BufferedWriter :=
  match w.writePieces ps with
  | (.error e, w) => (.error e, w)
  | (.ok (), w) => w.flush

/-- Let go of a writer behind a failure.  What is in its buffer is offered to the sink once more,
and nobody looks at the answer. -/
def abandon (w : BufferedWriter) : Sink :=
  w.flush.2.sink

end BufferedWriter

namespace OptionFile

/-- The pieces in which an entry is written: a comment as one block; a record by its name, each of
the blanks behind it, the assign sign, the value and the two line ends. -/
def Entry.pieces : Entry → List String
  | comment text => [renderComment text]
  | option r =>
    r.name :: (padding r.name).toList.map String.singleton ++ ["= ", r.value, "\n", "\n"]

/-- Write entries to a sink, one after the other.  The answer says whether all of them arrived; the
sink is returned either way. -/
def writeEntries (es : List Entry) (sink : Sink) : Except SystemError Unit × Sink :=
  match BufferedWriter.writeThrough { sink } ((es.flatMap Entry.pieces).map Utf8.encode) with
  | (.error e, w) => (.error e, w.abandon)
  | (.ok (), w) => (.ok (), w.sink)

/-- Write the file to a sink. -/
def writeTo (f : OptionFile) (sink : Sink) : Except SystemError Unit × Sink :=
  writeEntries f.entries sink

/-- The text of the file as it comes out of a sink that takes everything; none if some of it did not
arrive or what arrived is no text. -/
def collected? (f : OptionFile) : Option String :=
  match f.writeTo {} with
  | (.error _, _) => none
  | (.ok (), sink) => Utf8.decode? sink.held

end OptionFile

end SourceFormat
