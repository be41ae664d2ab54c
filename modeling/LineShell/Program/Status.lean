import LineShell.LineError
import LineShell.Text.Blank

/-! What the end of a program means. The system tells it by a word of bits: a program exits with
a code or is ended by a signal. Programs with the terminal and programs whose output is captured
are judged alike. -/

namespace LineShell.Program

/-- The word of bits that the system keeps about a program that has ended. -/
structure Status where
  bits : UInt32
  deriving DecidableEq, Repr

namespace Status

/-- The seven bits that hold a signal; they are zero after an exit. -/
def low (s : Status) : Nat :=
  s.bits.toNat % 128

/-- The exit code, if the program exited. -/
def code? (s : Status) : Option Nat :=
  if s.low = 0 then some (s.bits.toNat / 256 % 256) else none

/-- The signal that ended the program, if one did. The pattern of all ones is no signal. -/
def signal? (s : Status) : Option Nat :=
  if s.low = 0 ∨ s.low = 127 then none else some s.low

def exited (code : Nat) : Status :=
  ⟨UInt32.ofNat (code % 256 * 256)⟩

def killed (signal : Nat) : Status :=
  ⟨UInt32.ofNat (signal % 128)⟩

/-- The signal that Ctrl+C sends. -/
def interruptSignal : Nat := 2

def interrupted (s : Status) : Bool :=
  s.signal? = some interruptSignal

def succeeded (s : Status) : Bool :=
  s.bits = 0

/-- The status in words. -/
def description (s : Status) : Text :=
  match s.code?, s.signal? with
  | some code, _ => Text.decimal code
  | none, some signal => "signal " ++ Text.decimal signal
  | none, none => "unknown"

end Status

/-- How a run for its output ended. -/
inductive Captured where
  | exited (status : Status) (output : Text)
  | timedOut
  deriving DecidableEq, Repr

/-- What a run with the terminal comes to. `interrupt` is whether Ctrl+C arrived meanwhile. -/
def judgeAttached (name : Text) (status : Status) (interrupt : Bool) : Outcome :=
  if interrupt || status.interrupted then (LineError.interrupted name).outcome
  else if status.succeeded then .success []
  else (LineError.exitStatus status.description).outcome

/-- What a run for its output comes to, under a limit in milliseconds. -/
def judgeCaptured (name : Text) (run : Captured) (interrupt : Bool) (limit : Nat) : Outcome :=
  match run with
  | .timedOut => (LineError.timeout name limit).outcome
  | .exited status output =>
    if interrupt || status.interrupted then (LineError.interrupted name).outcome
    else if status.succeeded then .success (Text.trimEnd output)
    else (LineError.failedWithOutput status.description (Text.trimEnd output)).outcome

end LineShell.Program
