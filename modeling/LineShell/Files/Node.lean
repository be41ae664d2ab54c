import LineShell.Files.Name

/-! What a directory tree is made of. Directories hold entries by name; a file is told by a number
under which its content is kept elsewhere, so that two entries can be the same file. -/

namespace LineShell

/-- Times are in seconds since 1970. -/
abbrev Time := Int

inductive Node where
  | file (id : Nat)
  | link (target : Path) (changed : Time)
  /-- A device that takes all bytes and gives none. -/
  | sink
  | dir (mode : Nat) (changed : Time) (entries : List (Name × Node))

/-- What permission is asked for; only those of the owner count. -/
inductive Access where
  | read
  | write
  | search
  deriving DecidableEq, Repr

/-- Whether the bits of a mode give the permission. -/
def Access.granted (mode : Nat) : Access → Bool
  | read => mode / 0o400 % 2 = 1
  | write => mode / 0o200 % 2 = 1
  | search => mode / 0o100 % 2 = 1

namespace Node

def entries : Node → List (Name × Node)
  | dir _ _ es => es
  | _ => []

def isDir : Node → Bool
  | dir .. => true
  | _ => false

def isLink : Node → Bool
  | link .. => true
  | _ => false

/-- The entry of a name. -/
def entry? (n : Node) (name : Name) : Option Node :=
  List.lookup name n.entries

/-- Whether a directory grants the permission. -/
def grants (access : Access) : Node → Bool
  | dir mode .. => access.granted mode
  | _ => true

/-- The node at the end of a way down, the first name first. -/
def down : List Name → Node → Option Node
  | [], n => some n
  | name :: rest, n => (n.entry? name).bind (down rest)

/-- The node at a location. -/
def at? (n : Node) (l : Location) : Option Node :=
  n.down l.reverse

/-- A change of the node at the end of a way down. Without such a node nothing changes. -/
def changeDown (f : Node → Node) : List Name → Node → Node
  | [], n => f n
  | name :: rest, .dir mode changed es =>
    .dir mode changed (es.map fun (k, n) => (k, if k = name then changeDown f rest n else n))
  | _ :: _, n => n

/-- A change of the node at a location. -/
def changeAt (f : Node → Node) (l : Location) (n : Node) : Node :=
  n.changeDown f l.reverse

/-- Entries with one more, or with another node for a name that they have. -/
def putEntry (name : Name) (n : Node) : List (Name × Node) → List (Name × Node)
  | [] => [(name, n)]
  | (k, m) :: rest => if k = name then (k, n) :: rest else (k, m) :: putEntry name n rest

/-- A directory with an entry put into it. -/
def put (d : Node) (name : Name) (n : Node) : Node :=
  match d with
  | dir mode changed es => dir mode changed (putEntry name n es)
  | other => other

/-- A directory without an entry. -/
def erase (d : Node) (name : Name) : Node :=
  match d with
  | dir mode changed es => dir mode changed (es.filter (·.1 ≠ name))
  | other => other

end Node

end LineShell
