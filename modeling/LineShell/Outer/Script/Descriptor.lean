import LineShell.Outer.Script.Process

/-! Descriptors: where what a script writes goes to, and where what it reads comes from. -/

namespace LineShell.Script.Process

/-- The outlet of a descriptor. -/
def outlet (p : Process) (descriptor : Nat) : Option Outlet :=
  if descriptor = 1 then some p.out
  else if descriptor = 2 then some p.err
  else p.others.lookup descriptor

def setOutlet (p : Process) (descriptor : Nat) (o : Outlet) : Process :=
  if descriptor = 1 then { p with out := o }
  else if descriptor = 2 then { p with err := o }
  else { p with others := (descriptor, o) :: p.others }

/-- The outlet of a descriptor after its target is opened. -/
def openOutlet (p : Process) (append : Bool) (target : Text) : Except Text (Process × Outlet) :=
  let change := if append then FileTree.append p.tree p.clock else FileTree.overwrite p.tree p.clock
  let place := p.place target
  if target = "/dev/stdout".toList then .ok (p, p.out)
  else if target = "/dev/stderr".toList then .ok (p, p.err)
  else match change place [] with
  | .error (.os e) =>
    .error ("cannot create " ++ target ++ ": " ++
      (if e = .noEntry then "Directory nonexistent".toList else e.sentence))
  | .error e => .error ("cannot create " ++ target ++ ": " ++ e.message)
  | .ok tree =>
    match tree.node true place with
    | .ok (.file id) => .ok ({ p with tree }, .file id)
    | _ => .ok ({ p with tree }, .nowhere)

/-- What is said of a file that cannot be read. -/
def unreadable (file : Text) : IoError → Text
  | .os e =>
    "cannot open " ++ file ++ ": " ++
      (if e = .noEntry then "No such file".toList else e.sentence)
  | e => "cannot open " ++ file ++ ": " ++ e.message

/-- One redirection, with its word expanded. -/
def redirect (p : Process) (r : Redirect) (target : Text) : Except Text Process :=
  match r with
  | .write d append _ =>
    match p.openOutlet append target with
    | .ok (p, o) => .ok (p.setOutlet d o)
    | .error m => .error m
  | .duplicate d _ =>
    if target = ['-'] then .ok (p.setOutlet d .closed)
    else match (Text.digits? target).bind p.outlet with
    | some o => .ok (p.setOutlet d o)
    | none => if d = 0 then .ok p else .error (target ++ ": Bad file descriptor")
  | .read _ =>
    match p.tree.read (p.place target) with
    | .ok bytes => .ok { p with input := bytes }
    | .error (.os e) =>
      if e = .isDirectory then .ok { p with input := [] } else .error (unreadable target (.os e))
    | .error e => .error (unreadable target e)
  | .document _ => .ok { p with input := Text.encode target }

/-- The process with the descriptors that another one had before redirections. Input that was not
redirected is shared, so what is left of it stays. -/
def redirectedBack (p : Process) (redirects : List Redirect) (q : Process) : Process :=
  { p with
    out := q.out, err := q.err, others := q.others
    input := if redirects.any Redirect.reads then q.input else p.input }

end LineShell.Script.Process
