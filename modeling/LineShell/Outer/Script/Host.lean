import LineShell.Program.Host
import LineShell.Outer.Script.Run

/-! A system whose programs are script files, which are run by a shell of the system. It is the one
that the shell is run on here. Everything of scripts belongs to the outer layer: the library speaks
of any host, and no result is about this one but that its reports can be given at all. -/

namespace LineShell.Script

open Program (Event Report Launch)

/-- The number of steps that a program may take. -/
def stepLimit : Nat := 100000

/-- A program before its first step. -/
def Process.begin (tree : FileTree) (l : Launch) : Process :=
  { tree, cwd := l.cwd, environment := l.environment, name := l.program, parameters := [],
    clock := l.clock, deadline := l.limit, input := l.input, terminal := l.terminal }

/-- How a program ended. -/
def Process.ending (p : Process) : Program.Status :=
  match p.flow with
  | .killed signal => .killed signal
  | _ => .exited p.status

/-- What is seen of a program within a time limit. -/
def Process.events (p : Process) (limit : Nat) : List Event :=
  let stream (s : Program.Stream) (closed : Nat) : List Event :=
    if closed < limit then [.delivers s (Text.lossy (p.streamBytes s))] else []
  if p.flow = .unfinished || p.now ≥ limit then [.expires, .exits (.killed 9)]
  else .exits p.ending ::
    (stream .out (max p.now p.heldOut) ++ stream .err (max p.now p.heldErr) ++ [.expires])

/-- Either the time runs out, or both texts come. -/
theorem Process.settles (p : Process) (limit : Nat) :
    (Program.captured? (p.events limit)).isSome := by
  simp only [events]
  split
  · rfl
  · split <;> split <;> rfl

/-- Whether a text can be handed to the system. -/
def hasNul (t : Text) : Bool :=
  t.contains (Char.ofNat 0)

/-- Why no program can be started in a directory. -/
def directoryError? (tree : FileTree) (cwd : Path) : Option IoError :=
  match tree.node true cwd with
  | .error e => some e
  | .ok n =>
    if !n.isDir then some (.os .notDirectory)
    else if !n.grants .search then some (.os .permission)
    else none

/-- Starts a program. -/
def host : Program.Host := fun tree l =>
  if (l.program :: l.cwd :: l.arguments).any hasNul then .error .nulInArgument
  else match directoryError? tree l.cwd with
  | some e => .error e
  | none =>
    match Image.find false tree l.cwd (l.environment.get? "PATH") l.program l.arguments with
    | .error e => .error (.os e)
    | .ok image =>
      let p := Process.start stepLimit (.begin tree l) image
      .ok
        { tree := p.tree
          status := p.ending
          out := if l.limit.isNone then p.streamBytes .out else []
          err := if l.limit.isNone then p.streamBytes .err else []
          watched := l.limit.elim default fun limit => ⟨p.events limit, p.settles limit⟩
          taken := l.input.length - p.input.length
          interrupt := p.signalled }

end LineShell.Script
