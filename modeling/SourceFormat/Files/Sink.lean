import SourceFormat.SystemError
import SourceFormat.Text.Utf8

/-!
# Sinks

A `Sink` takes bytes up to a limit.  How many it takes at a time is its own affair (`Sink.stride`);
that it may take a part of what it is offered, and refuse only at a later call, is what a writer has
to get right.
-/

namespace SourceFormat

/-- Something that takes bytes: `room` is the number of bytes it takes in all (`none`: any
number), `stride k` the most it takes at its `k`th call, `refusal` the failure that a call ends in
which takes nothing (`none`: the call just says so), and `held` what it has taken. -/
structure Sink where
  room : Option Nat := none
  stride : Nat → Nat := fun _ => 4096
  refusal : Option SystemError := some (.other "sink closed")
  held : Bytes := []
  calls : Nat := 0

namespace Sink

/-- How many of so many more bytes there is room for. -/
def fitting (s : Sink) (offered : Nat) : Nat :=
  match s.room with
  | none => offered
  | some n => min offered (n - s.held.length)

/-- How many of `offered` bytes the sink takes at its next call: never more than it has room for,
and at least one if it has room for all of them. -/
def accepts (s : Sink) (offered : Nat) : Nat :=
  let least := if s.fitting offered = offered then 1 else 0
  min (s.fitting offered) (max least (s.stride s.calls))

/-- Offer `bs` again and again until all of it is taken or a call takes nothing.  The bytes that
were not taken are returned beside the sink. -/
def offer : Nat → Sink → Bytes → Bytes × Sink
  | 0, s, bs => (bs, s)
  | fuel + 1, s, bs =>
    if bs.isEmpty then (bs, s)
    else
      let n := s.accepts bs.length
      let after := { s with held := s.held ++ bs.take n, calls := s.calls + 1 }
      if n = 0 then (bs, after) else offer fuel after (bs.drop n)

/-- Offer all of `bs`.  A call takes a byte at least, or it is the last one. -/
def offerAll (s : Sink) (bs : Bytes) : Bytes × Sink :=
  offer bs.length s bs

/-- What is reported of bytes that a sink refused without a failure of its own. -/
def unwritten : String := "failed to write whole buffer"

/-- What is reported when some bytes are `left`: the failure of the sink, or, for a sink that has
none, a text of the writer's own. -/
def report (s : Sink) (left : Bytes) (unexplained : String) : Except SystemError Unit :=
  if left.isEmpty then .ok () else .error (s.refusal.getD (.other unexplained))

end Sink

end SourceFormat
