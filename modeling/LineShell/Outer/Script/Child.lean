import LineShell.Outer.Script.Signal

/-! Processes that a script starts and waits for: how they begin, and what they leave behind. -/

namespace LineShell.Script.Process

/-- What a program in a process of its own leaves behind for the process that waits for it. -/
def joined (p child : Process) : Process :=
  let status := match child.flow with
    | .killed n => 128 + n
    | _ => child.status
  { p with
    tree := child.tree, now := child.now, status, written := child.written, input := child.input,
    heldOut := child.heldOut, heldErr := child.heldErr, signalled := child.signalled,
    flow := if child.flow = .unfinished then .unfinished else p.flow }

/-- What a program leaves behind for the script, which tells of a signal that has ended it. -/
def waited (p child : Process) : Process :=
  match child.flow with
  | .killed n =>
    if [2, 13].contains n then p.joined child else (p.joined child).warn (signalSentence n)
  | _ => p.joined child

/-- What a part of the script in a process of its own leaves behind. The signals that it has sent to
the script come in now. -/
def rejoined (p child : Process) : Process :=
  child.pending.foldl receive (p.joined child)

/-- A part of the script in a process of its own, before it runs. What is done at the end of the
script is not done at its end. -/
def branch (p : Process) : Process :=
  { p with inner := true, pending := [], traps := p.traps.filter (·.1 ≠ 0) }

/-- The process that a program begins as. Signals that are passed over stay so. -/
def fresh (p : Process) : Process :=
  { p with
    status := 0, functions := [], fixed := [], outer := none, options := [], inner := false
    pending := [], loops := 0, tested := false, traps := p.traps.filter (·.2.isEmpty)
    environment := p.environment.filter fun (name, _) => p.shared.contains name }

end LineShell.Script.Process
