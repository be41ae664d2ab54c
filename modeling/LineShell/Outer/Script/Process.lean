import LineShell.Files.Change
import LineShell.Program.Capture
import LineShell.Outer.Script.Options
import LineShell.Outer.Script.Syntax
import LineShell.Text.Numeral
import LineShell.Variables

/-! A running script: what it knows, what it has written, and how long it has run. Time is counted
in milliseconds and passes only while a script sleeps. Scripts are part of the outer layer, and
stand in for the programs of a system. -/

namespace LineShell.Script

open Program (Stream)

/-- Where a descriptor leads. -/
inductive Outlet where
  | stream (s : Stream)
  | file (id : Nat)
  | nowhere
  | closed
  deriving DecidableEq, Repr

/-- How a script goes on after a statement. -/
inductive Flow where
  | onward
  | leaving (loops : Nat)
  | again (loops : Nat)
  | returning
  | exited
  | killed (signal : Nat)
  /-- The script is not at its end when the time that it is watched for is over. -/
  | unfinished
  deriving DecidableEq, Repr

structure Process where
  tree : FileTree
  cwd : Path
  environment : Variables
  name : Text
  parameters : List Text
  options : Options := []
  /-- The time for files that are written. -/
  clock : Time
  /-- How long the script is watched, if not to its end. -/
  deadline : Option Nat
  now : Nat := 0
  status : Nat := 0
  out : Outlet := .stream .out
  err : Outlet := .stream .err
  /-- Where the other descriptors lead, latest first. -/
  others : List (Nat × Outlet) := []
  input : Text.Bytes := []
  /-- Whether what is written as output goes to a terminal. -/
  terminal : Bool := false
  /-- The line of the command that is carried out. -/
  line : Nat := 0
  /-- Whether the statement is one whose failure is looked at, so that it is none of the script. -/
  tested : Bool := false
  /-- What was written to the streams and when, latest first. -/
  written : List (Nat × Stream × Text.Bytes) := []
  flow : Flow := .onward
  functions : List (Text × Statement) := []
  /-- The status of the commands whose output was put into the words last. -/
  answered : Nat := 0
  /-- The variables that programs get to see. -/
  shared : List Text := []
  /-- The variables that cannot be changed any more. -/
  fixed : List Text := []
  /-- The values that the variables of a function had before it, latest first; `none` outside of
  functions. -/
  outer : Option (List (Text × Option Text)) := none
  /-- What is done when a signal comes in, and for number 0 when the script ends. -/
  traps : List (Nat × Text) := []
  /-- The signals that have come in and are still to be acted on. -/
  pending : List Nat := []
  /-- Whether this is a part of a script in a process of its own. Signals to the script are not for
  it, but for the process that waits for it. -/
  inner : Bool := false
  /-- How many loops the statement stands in. -/
  loops : Nat := 0
  /-- Until when processes in the background keep the streams open. -/
  heldOut : Nat := 0
  heldErr : Nat := 0
  /-- Whether the script has sent Ctrl+C to the shell. -/
  signalled : Bool := false

namespace Process

/-- The numbers that a script knows itself and its parent by. -/
def ownNumber : Text := "4243"
def parentNumber : Text := "4242"

/-- Whether the next statement is to be carried out. -/
def goesOn (p : Process) : Bool :=
  p.flow = .onward

def withStatus (p : Process) (n : Nat) : Process :=
  { p with status := n }

/-- Bytes written to an outlet. -/
def writeTo (p : Process) (o : Outlet) (bytes : Text.Bytes) : Process :=
  match o with
  | .stream s => { p with written := (p.now, s, bytes) :: p.written }
  | .file id =>
    { p with tree := p.tree.changeFile id fun f =>
        { f with bytes := f.bytes ++ bytes, changed := p.clock } }
  | .nowhere => p
  | .closed => p

/-- A line written as an error. -/
def warn (p : Process) (what : Text) : Process :=
  p.writeTo p.err (Text.encode (what ++ "\n"))

/-- A complaint of the script's own about the command that it carries out. -/
def complain (p : Process) (what : Text) (status : Nat) : Process :=
  (p.warn (p.name ++ ": " ++ Text.decimal p.line ++ ": " ++ what)).withStatus status

/-- A complaint of a utility. -/
def complainOf (p : Process) (utility : Text) (what : Text) (status : Nat) : Process :=
  p.complain (utility ++ ": " ++ what) status

/-- Bytes written by a utility as its output. -/
def say (p : Process) (utility : Text) (bytes : Text.Bytes) : Process :=
  if p.out = .closed && !bytes.isEmpty then
    p.complainOf utility (utility ++ ": I/O error") 1
  else (p.withStatus 0).writeTo p.out bytes

/-- Ends the script with a complaint. -/
def giveUp (p : Process) (what : Text) : Process :=
  { p.complain what 2 with flow := .exited }

/-- Time passes; the watch may end meanwhile. -/
def wait (p : Process) (milliseconds : Nat) : Process :=
  let until_ := p.now + milliseconds
  match p.deadline with
  | some d =>
    if until_ > d then { p with now := d, flow := .unfinished } else { p with now := until_ }
  | none => { p with now := until_ }

/-- The directory that the script is in, as the environment spells it if it does, or else with no
link in it. -/
def directory (p : Process) : Text.Bytes :=
  let here := p.tree.location p.cwd
  let spelled := (p.environment.get? "PWD").filter fun (t : Text) =>
    t.head? = some '/' && (p.tree.location t).toOption = here.toOption
  match spelled, here with
  | some t, _ => Text.encode t
  | none, .ok l => l.bytes
  | none, .error _ => Text.encode p.cwd

/-- The value of a parameter. -/
def parameter? (p : Process) (name : Text) : Option Text :=
  match name with
  | ['?'] => some (Text.decimal p.status)
  | ['#'] => some (Text.decimal p.parameters.length)
  | ['$'] => some ownNumber
  | ['!'] => some ownNumber
  | ['-'] => some p.options.shown
  | ['0'] => some p.name
  | ['*'] | ['@'] => some (Text.joined [' '] p.parameters)
  | _ =>
    match Text.digits? name with
    | some n => p.parameters[n - 1]?
    | none =>
      if name = "PPID".toList then some parentNumber
      else if name = "PWD".toList then some (Text.lossy p.directory)
      else p.environment.get? name

/-- Gives a value to a variable, or none. -/
def keep (p : Process) (name : Text) (value : Option Text) : Process :=
  { p with environment :=
      (value.map (name, ·)).toList ++ p.environment.filter (·.1 ≠ name) }

/-- Gives a value to a variable that can be changed. -/
def assign (p : Process) (name value : Text) : Process :=
  if p.fixed.contains name then p.giveUp (name ++ ": is read only")
  else p.keep name (some value)

/-- The characters that values are split at. -/
def separators (p : Process) : Text :=
  (p.environment.get? "IFS").getD " \t\n"

/-- The place that a typed path names for the script. -/
def place (p : Process) (typed : Text) : Place :=
  Path.join p.cwd typed

/-- Bytes written to a stream, in the order in which they were written. -/
def streamBytes (p : Process) (s : Stream) : Text.Bytes :=
  (((p.written.reverse.filter fun (_, t, _) => t = s).mergeSort fun a b => a.1 ≤ b.1).map
    fun (_, _, bytes) => bytes).flatten

end Process

end LineShell.Script
