import SourceFormat.Shell.Command

/-!
# Signals

Scripts name signals by their numbers or by their names.
-/

namespace SourceFormat.Shell.Signal

/-- The names and numbers. -/
def names : List (Octets × Nat) :=
  [("HUP", 1), ("INT", 2), ("QUIT", 3), ("ILL", 4), ("TRAP", 5), ("ABRT", 6), ("BUS", 7),
   ("FPE", 8), ("KILL", 9), ("USR1", 10), ("SEGV", 11), ("USR2", 12), ("PIPE", 13), ("ALRM", 14),
   ("TERM", 15), ("STKFLT", 16), ("CHLD", 17), ("CONT", 18), ("STOP", 19), ("TSTP", 20),
   ("TTIN", 21), ("TTOU", 22), ("URG", 23), ("XCPU", 24), ("XFSZ", 25), ("VTALRM", 26),
   ("PROF", 27), ("WINCH", 28), ("POLL", 29), ("PWR", 30), ("SYS", 31)].map
    fun (name, n) => (name.toList, n)

/-- The name of the end of a script, which can be trapped like a signal. -/
def exitName : Octets := "EXIT".toList

/-- The signal that cannot be trapped. -/
def kill : Nat := 9

/-- The signal that is sent if none is named. -/
def terminate : Nat := 15

/-- The number that a word stands for; the end of a script is number 0. -/
def number? (cs : Octets) : Option Nat :=
  if !cs.isEmpty && cs.all Char.isDigit then (String.ofList cs).toNat?
  else
    let name := (if ['S', 'I', 'G'].isPrefixOf cs then cs.drop 3 else cs).map Char.toUpper
    if name = exitName then some 0 else (names.find? (·.1 = name)).map (·.2)

/-- The name of a number. -/
def name? (n : Nat) : Option Octets :=
  if n = 0 then some exitName else (names.find? (·.2 = n)).map (·.1)

/-- How a shell tells that a signal has ended a process; it says nothing about an interrupt and
about a pipe that nobody reads. -/
def describe? (n : Nat) : Option String :=
  match n with
  | 1 => some "Hangup"
  | 3 => some "Quit"
  | 4 => some "Illegal instruction"
  | 5 => some "Trace/breakpoint trap"
  | 6 => some "Aborted"
  | 7 => some "Bus error"
  | 8 => some "Floating point exception"
  | 9 => some "Killed"
  | 10 => some "User defined signal 1"
  | 11 => some "Segmentation fault"
  | 12 => some "User defined signal 2"
  | 14 => some "Alarm clock"
  | 15 => some "Terminated"
  | _ => none

/-- Whether a process that does nothing about a signal goes on. -/
def isHarmless (n : Nat) : Bool := n = 17 || n = 18 || n = 23 || n = 28

/-- Whether a process that does nothing about a signal stands still. -/
def stops (n : Nat) : Bool := 19 ≤ n && n ≤ 22

end SourceFormat.Shell.Signal
