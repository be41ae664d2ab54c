import LineShell.Text.Basic

/-! What a line comes to: a text to show, and whether it tells of success or of failure. -/

namespace LineShell

inductive Outcome where
  | success (text : Text)
  | failure (text : Text)
  deriving DecidableEq, Repr

namespace Outcome

/-- The text, whichever outcome holds it. -/
def message : Outcome → Text
  | success t => t
  | failure t => t

def isSuccess : Outcome → Bool
  | success _ => true
  | failure _ => false

/-- The exit code of a shell that runs one line only. -/
def exitCode : Outcome → Nat
  | success _ => 0
  | failure _ => 1

end Outcome

/-- Why a line has no outcome: it asks for more memory than can be asked for, for a number that
cannot be worked out, or for the date of a time that has none. -/
inductive Crash where
  | capacity
  | product
  | sum
  | difference
  | quotient
  | date
  deriving DecidableEq, Repr

/-- What is said of a crash. -/
def Crash.message : Crash → Text
  | capacity => "capacity overflow"
  | product => "attempt to multiply with overflow"
  | sum => "attempt to add with overflow"
  | difference => "attempt to subtract with overflow"
  | quotient => "attempt to divide by zero"
  | date => "No such local time"

/-- How a line ends: with an outcome, or without one. -/
inductive Ending where
  | answered (outcome : Outcome)
  | crashed (why : Crash)
  /-- The whole shell is ended, for it has asked for so many bytes of memory and is not granted
  them. -/
  | aborted (bytes : Nat)
  deriving DecidableEq, Repr

def Ending.isAborted : Ending → Bool
  | aborted _ => true
  | _ => false

end LineShell
