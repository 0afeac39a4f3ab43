import SourceFormat.Subprocess.Exchange
import SourceFormat.Subprocess.Session

/-!
# What an exchange leaves behind

When a process has ended, its supervisor asks in turn how it ended, whether its input went through,
and what was captured of its two outputs.  The first of these that failed is what the exchange came
to.  A process may end without reading all of its input, so a broken pipe there is no failure.

The outputs are decoded as they stand, whatever the process wrote.
-/

namespace SourceFormat.Subprocess

/-- The text of a captured stream: as it was written if that is text, and otherwise with every
broken piece replaced. -/
def streamText (bytes : Bytes) : String :=
  match Utf8.decode? bytes with
  | some text => text
  | none => Utf8.decode bytes

/-- The system's answers when an exchange is over. -/
structure Remains where
  status : Except SystemError Ending
  input : Except SystemError Unit
  stdout : Except SystemError Bytes
  stderr : Except SystemError Bytes

namespace Remains

/-- What became of the input; a process need not read it all. -/
def inputFailure? (r : Remains) : Option SystemError :=
  match r.input with
  | .ok () => none
  | .error source => if source = .brokenPipe then none else some source

/-- What the exchange came to. -/
def collected (r : Remains) : Collected :=
  match r.status with
  | .error source => .unknown source
  | .ok ending =>
    match r.inputFailure? with
    | some source => .unwritten source
    | none =>
      match r.stdout, r.stderr with
      | .error source, _ => .unread source
      | .ok _, .error source => .unread source
      | .ok out, .ok err =>
        .exited {
          exitCode := ending.exitCode
          stdout := streamText out
          stderr := streamText err }

end Remains

/-- What became of the input when the writer is through. -/
def Writer.answer : Writer → Except SystemError Unit
  | refused => .error .brokenPipe
  | _ => .ok ()

end SourceFormat.Subprocess
