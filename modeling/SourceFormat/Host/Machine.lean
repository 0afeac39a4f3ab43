import SourceFormat.Formatting.Service
import SourceFormat.Subprocess.Slot

/-!
# What runs on a host

Sessions, slots, tasks and services are machines: each holds sessions, takes in what happens to
them, and has calls that go on by themselves.  A host needs nothing else of them.
-/

namespace SourceFormat.Host

open Subprocess (Session Slot)
open Formatting (Task Service)

/-- How a host drives something. -/
structure Machine (σ : Type) where
  sessions : σ → List Session
  /-- Something happens to a session. -/
  notify : σ → Nat → Session.Event → Option σ
  /-- The next step of some call; none if all of them wait or have returned. -/
  advance : Task.Surroundings → σ → FileTree → Option (σ × FileTree)
  /-- The option files that are in use. -/
  held : σ → List Config.Resolved

namespace Machine

/-- A single session: whoever started it waits for it. -/
def session : Machine Session where
  sessions s := [s]
  notify s _ e := s.step e
  advance _ _ _ := none
  held _ := []

/-- The first call from number `c` on that can take a step. -/
def firstCall (env : Task.Surroundings) (s : Slot) : Nat → List Slot.Call → Option Slot
  | _, [] => none
  | c, call :: calls =>
    match (Slot.nextAction? env.launch c call).bind s.step with
    | some s => some s
    | none => firstCall env s (c + 1) calls

/-- A slot with its calls. -/
def slot : Machine Slot where
  sessions s := s.sessions
  notify s i e := s.step (.session i e)
  advance env s files := (firstCall env s 0 s.calls).map fun s => (s, files)
  held _ := []

/-- A task with its run. -/
def task : Machine Task where
  sessions t := [t.session]
  notify t _ e := t.sessionStep e
  advance env t files := t.advance env files
  held t := t.config?.toList

/-- The first of some actions that can be taken. -/
def firstAction (env : Task.Surroundings) (s : Service) (files : FileTree) :
    List Service.Action → Option (Service × FileTree)
  | [] => none
  | a :: rest =>
    match s.step env files a with
    | some r => some r
    | none => firstAction env s files rest

/-- A service with its calls. -/
def service : Machine Service where
  sessions s := s.tasks.map (·.session)
  notify s i e := (s.step ⟨{ directory := ⟨[]⟩ }, fun _ => .ok ()⟩ {} (.session i e)).map (·.1)
  advance env s files :=
    firstAction env s files
      ((List.range s.cancels.length).map .stepCancel
        ++ (List.range s.formats.length).map .stepFormat)
  held s := s.tasks.flatMap fun t => t.config?.toList

end Machine

end SourceFormat.Host
