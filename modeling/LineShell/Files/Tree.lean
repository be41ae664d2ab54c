import LineShell.Files.Errno
import LineShell.Files.Node

/-! A file tree, and the way the system finds what a path names in it. -/

namespace LineShell

/-- A regular file: what it holds, its permission bits, and when it was last written. -/
structure FileData where
  bytes : Text.Bytes
  mode : Nat
  changed : Time
  deriving DecidableEq, Repr

/-- Directories from a root on, and the files by their numbers. -/
structure FileTree where
  root : Node
  files : List FileData

/-- What a path leads to: something that is there, or a free name in a directory. -/
inductive Target where
  | entry (location : Location) (node : Node)
  | vacant (parent : Location) (name : Name)

namespace FileTree

/-- The most links that are followed for one path. -/
def linkLimit : Nat := 40

/-- The most bytes of a name, and one more than the most bytes of a path. -/
def nameLimit : Nat := 255
def pathLimit : Nat := 4096

/-- Where a walk stands: the entries it went through, the last one first. -/
abbrev Trail := List (Name × Node)

def Trail.location (trail : Trail) : Location :=
  trail.map (·.1)

/-- The node that a walk has reached. -/
def standing (t : FileTree) : Trail → Node
  | [] => t.root
  | (_, n) :: _ => n

/-- The components of a link's target, with those that are left behind it. Only where none is left
does it matter whether the target ends in a slash. -/
def onward (target : Path) (rest : List (Component Name)) : List (Component Name) :=
  (if rest.isEmpty then Path.allComponents target else Path.spelled target).map
    (.map Name.ofText) ++ rest

/-- The walk through the components that are left. Links are followed while `links` lasts; the one
that the last component names is followed only if `follow` says so. To stay in a directory at the
end asks for no permission to go on from there. -/
def walk (t : FileTree) (follow : Bool) (links : Nat) (trail : Trail) :
    List (Component Name) → Except Errno Target
  | [] => .ok (.entry trail.location (t.standing trail))
  | step :: rest =>
    let here := t.standing trail
    if !here.isDir then .error .notDirectory
    else if step = .here ∧ rest.isEmpty then .ok (.entry trail.location here)
    else if !here.grants .search then .error .permission
    else match step with
    | .root => t.walk follow links [] rest
    | .here => t.walk follow links trail rest
    | .up => t.walk follow links trail.tail rest
    | .name n =>
      if n.size > nameLimit then .error .nameTooLong
      else match here.entry? n with
      | none => if rest.isEmpty then .ok (.vacant trail.location n) else .error .noEntry
      | some (.link target changed) =>
        if rest.isEmpty && !follow then .ok (.entry (n :: trail.location) (.link target changed))
        else match links with
        | 0 => .error .tooManyLinks
        | links + 1 => t.walk follow links trail (onward target rest)
      | some m => t.walk follow links ((n, m) :: trail) rest
termination_by todo => (links, todo.length)

/-- What a path names. -/
def find (t : FileTree) (follow : Bool) (p : Place) : Except IoError Target :=
  if p.path.contains (Char.ofNat 0) then .error .nulInPath
  else if p.size = 0 then .error (.os .noEntry)
  else if p.size ≥ pathLimit then .error (.os .nameTooLong)
  else match t.walk follow linkLimit [] p.walked with
    | .ok target => .ok target
    | .error e => .error (.os e)

/-- What is there under a path. -/
def node (t : FileTree) (follow : Bool) (p : Place) : Except IoError Node :=
  match t.find follow p with
  | .ok (.entry _ n) => .ok n
  | .ok (.vacant ..) => .error (.os .noEntry)
  | .error e => .error e

/-- Where a path leads to when all links are followed. -/
def location (t : FileTree) (p : Place) : Except IoError Location :=
  match t.find true p with
  | .ok (.entry l _) => .ok l
  | .ok (.vacant ..) => .error (.os .noEntry)
  | .error e => .error e

/-- Whether anything is there, links being followed. -/
def isThere (t : FileTree) (p : Place) : Bool :=
  (t.node true p).toOption.isSome

def isDir (t : FileTree) (p : Place) : Bool :=
  (t.node true p).toOption.any Node.isDir

/-- Whether a regular file is there, links being followed. -/
def isFile (t : FileTree) (p : Place) : Bool :=
  (t.node true p).toOption.any fun
    | .file _ => true
    | _ => false

/-- Whether a link is there, wherever it leads. -/
def isLink (t : FileTree) (p : Place) : Bool :=
  (t.node false p).toOption.any Node.isLink

/-- Whether something grants a permission. -/
def grants (t : FileTree) (access : Access) : Node → Bool
  | .file id => t.files[id]?.any fun f => access.granted f.mode
  | n => n.grants access

/-- The entries of a directory, as the system lists them. -/
def list (t : FileTree) (p : Place) : Except IoError (List (Name × Node)) :=
  match t.node true p with
  | .error e => .error e
  | .ok n =>
    if !n.isDir then .error (.os .notDirectory)
    else if !n.grants .read then .error (.os .permission)
    else .ok n.entries

/-- The bytes of a file. -/
def read (t : FileTree) (p : Place) : Except IoError Text.Bytes :=
  match t.node true p with
  | .error e => .error e
  | .ok n =>
    if !t.grants .read n then .error (.os .permission)
    else match n with
    | .file id => .ok (t.files[id]?.elim [] FileData.bytes)
    | .sink => .ok []
    | _ => .error (.os .isDirectory)

mutual

/-- Whether a node and all below it can be looked at and read. -/
def readable (t : FileTree) : Node → Bool
  | .dir mode _ es =>
    Access.read.granted mode && (es.isEmpty || Access.search.granted mode) && t.readableEntries es
  | .file id => t.grants .read (.file id)
  | _ => true

def readableEntries (t : FileTree) : List (Name × Node) → Bool
  | [] => true
  | (_, n) :: rest => t.readable n && t.readableEntries rest

end

end FileTree

end LineShell
