import SourceFormat.Cli.Run
import SourceFormat.Host.Play

/-!
# The program on a host

A host runs the formatter for the program: checks go through a slot, documents through a service,
and each run is waited for.
-/

namespace SourceFormat.Host

open Subprocess (Request RunError Slot)

namespace World

/-- Run a request through a slot and wait for it: the files behind it, and the outcome.  A call that
never returns counts as one that was cancelled. -/
def runOnce (w : World) (r : Request) : FileTree × Except RunError Subprocess.Outcome :=
  let outcome? := fun (p : Play Slot) => p.machine.calls.head?.bind (·.outcome?)
  let start : Play Slot := { machine := {}, world := w }
  let p := (start.act Machine.slot (·.call r)).until_ Machine.slot fun p => (outcome? p).isSome
  (p.finish Machine.slot, (outcome? p).getD (.ok .cancelled))

/-- What a service on this host has come to that was asked to format a document, when the call has
returned or nobody can go on. -/
def formatting (w : World) (settings : Settings) (style : Style) (r : Formatting.Request) :
    Play Formatting.Service :=
  let start : Play Formatting.Service := { machine := { settings, style }, world := w }
  (start.act Machine.service (·.format r)).until_ Machine.service fun p =>
    (firstOutcome? p.machine).isSome
where
  /-- The outcome of the first call, if it has returned. -/
  firstOutcome? (s : Formatting.Service) : Option Formatting.Outcome :=
    s.formats.head?.bind (·.outcome?)

/-- Format a document through a service and wait for it.  A call that never returns counts as one
that was cancelled. -/
def formatOnce (w : World) (settings : Settings) (style : Style) (r : Formatting.Request) :
    FileTree × Formatting.Outcome :=
  let p := w.formatting settings style r
  (p.finish Machine.service, (formatting.firstOutcome? p.machine).getD .cancelled)

/-- Who runs the formatter for the program on this host. -/
def services (w : World) : Cli.Services where
  verify files timeout path :=
    let (files, outcome) :=
      { w with files }.runOnce ((Formatter.Probe.request path).withTimeout timeout)
    (files, Formatter.Probe.verdict outcome)
  validate files timeout executable config :=
    let (files, outcome) :=
      { w with files }.runOnce ((Formatter.Validator.request executable config).withTimeout timeout)
    (files, Formatter.Validator.acceptance outcome)
  format files settings style r := { w with files }.formatOnce settings style r

end World

end SourceFormat.Host
