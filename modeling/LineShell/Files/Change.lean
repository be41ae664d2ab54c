import LineShell.Files.Tree

/-! Changes of a file tree. Each is all or nothing, but for those that work through a whole
directory: they give the tree that they leave, with the error that stopped them. -/

namespace LineShell

/-- The permissions of new files and directories. -/
def newFileMode : Nat := 0o644
def newDirMode : Nat := 0o755

namespace FileTree

/-- The tree with another content of a directory. -/
def changeDir (t : FileTree) (l : Location) (f : Node → Node) : FileTree :=
  { t with root := t.root.changeAt f l }

/-- The tree with a file changed, under all its names. -/
def changeFile (t : FileTree) (id : Nat) (f : FileData → FileData) : FileTree :=
  { t with files := t.files.modify id f }

/-- Whether entries of the directory at a location may be added and removed. -/
def mayChange (t : FileTree) (l : Location) : Bool :=
  (t.root.at? l).any fun n => n.grants .write && n.grants .search

/-- The tree with a new file in a directory, and the number of the file. -/
def newFile (t : FileTree) (parent : Location) (name : Name) (data : FileData) :
    FileTree × Nat :=
  let id := t.files.length
  let t := t.changeDir parent (·.put name (.file id))
  ({ t with files := t.files ++ [data] }, id)

/-- The file to write to at a path, which is made where it is missing. There is no file where a
device takes the bytes. -/
def openForWriting (t : FileTree) (now : Time) (p : Place) :
    Except IoError (FileTree × Option Nat) :=
  match t.find true p with
  | .error e => .error e
  | .ok (.vacant parent name) =>
    if t.mayChange parent then
      let (t, id) := t.newFile parent name { bytes := [], mode := newFileMode, changed := now }
      .ok (t, some id)
    else .error (.os .permission)
  | .ok (.entry _ n) =>
    if n.isDir then .error (.os .isDirectory)
    else if !t.grants .write n then .error (.os .permission)
    else match n with
    | .file id => .ok (t, some id)
    | _ => .ok (t, none)

/-- The tree after a change of the file at a path. -/
def changeAt (t : FileTree) (now : Time) (p : Place) (f : FileData → FileData) :
    Except IoError FileTree :=
  match t.openForWriting now p with
  | .error e => .error e
  | .ok (t, some id) => .ok (t.changeFile id f)
  | .ok (t, none) => .ok t

/-- The file at a path holds just these bytes. -/
def overwrite (t : FileTree) (now : Time) (p : Place) (bytes : Text.Bytes) :
    Except IoError FileTree :=
  t.changeAt now p fun f => { f with bytes, changed := now }

/-- The file at a path holds these bytes behind what it held. Writing none leaves no trace. -/
def append (t : FileTree) (now : Time) (p : Place) (bytes : Text.Bytes) :
    Except IoError FileTree :=
  t.changeAt now p fun f =>
    if bytes.isEmpty then f else { f with bytes := f.bytes ++ bytes, changed := now }

/-- The time of the file at a path is `now`. -/
def touch (t : FileTree) (now : Time) (p : Place) : Except IoError FileTree :=
  t.changeAt now p fun f => { f with changed := now }

/-- The file at `dest` is like the one at `source`. It is emptied before anything is read, so a file
that is copied to itself ends up empty. -/
def copyFile (t : FileTree) (now : Time) (source dest : Place) : Except IoError FileTree :=
  match t.node true source with
  | .error e => .error e
  | .ok n =>
    if !t.grants .read n then .error (.os .permission)
    else match n with
    | .file id =>
      match t.openForWriting now dest with
      | .error e => .error e
      | .ok (t, none) => .ok t
      | .ok (t, some new) =>
        let emptied := t.changeFile new fun f => { f with bytes := [], changed := now }
        match emptied.files[id]? with
        | none => .ok emptied
        | some data =>
          .ok (emptied.changeFile new fun f => { f with bytes := data.bytes, mode := data.mode })
    | _ => .error .notRegular

/-- A new directory. -/
def createDir (t : FileTree) (now : Time) (p : Place) : Except IoError FileTree :=
  match t.find false p with
  | .error e => .error e
  | .ok (.entry ..) => .error (.os .alreadyExists)
  | .ok (.vacant parent name) =>
    if t.mayChange parent then .ok (t.changeDir parent (·.put name (.dir newDirMode now [])))
    else .error (.os .permission)

/-- A place and those above it, up to its first component. -/
def upFrom : Nat → Place → List Place
  | 0, _ => []
  | n + 1, p =>
    match p.parent? with
    | some above => p :: upFrom n above
    | none => []

/-- New directories, one after another; those that are there already are passed over. -/
def createEach (t : FileTree) (now : Time) : List Place → FileTree × Option IoError
  | [] => (t, none)
  | p :: below =>
    match t.createDir now p with
    | .ok t => t.createEach now below
    | .error e => if t.isDir p then t.createEach now below else (t, some e)

/-- A new directory, with those above it that are missing. The places to try are the directory and
those above it, the nearest first; `missing` are the ones below that are still to be made. -/
def createDirs (t : FileTree) (now : Time) (missing : List Place) :
    List Place → FileTree × Option IoError
  | [] => t.createEach now missing
  | p :: above =>
    match t.createDir now p with
    | .ok t => t.createEach now missing
    | .error e =>
      if e = .os .noEntry then t.createDirs now (p :: missing) above
      else if t.isDir p then t.createEach now missing
      else (t, some e)

/-- A directory and those above it that are missing. -/
def createDirAll (t : FileTree) (now : Time) (p : Place) : FileTree × Option IoError :=
  t.createDirs now [] (upFrom (p.components.length + 1) p)

/-- What is removed by a path: the directory that holds it, its name in there, and itself. -/
def removable (t : FileTree) (p : Place) : Except IoError (Location × Name × Node) :=
  match t.find false p with
  | .error e => .error e
  | .ok (.vacant ..) => .error (.os .noEntry)
  | .ok (.entry [] _) => .error (.os .busy)
  | .ok (.entry (name :: parent) n) =>
    if t.mayChange parent then .ok (parent, name, n) else .error (.os .permission)

/-- An empty directory is gone. -/
def removeDir (t : FileTree) (p : Place) : Except IoError FileTree :=
  match t.removable p with
  | .error e => .error e
  | .ok (parent, name, n) =>
    if !n.isDir then .error (.os .notDirectory)
    else if !n.entries.isEmpty then .error (.os .notEmpty)
    else .ok (t.changeDir parent (·.erase name))

/-- What is no directory is gone from its place. -/
def unlink (t : FileTree) (p : Place) : Except IoError FileTree :=
  match t.removable p with
  | .error e => .error e
  | .ok (parent, name, n) =>
    if n.isDir then .error (.os .isDirectory)
    else .ok (t.changeDir parent (·.erase name))

end FileTree

mutual

/-- What is left of a node when all its entries are removed, each with its own entries first; and
the error at which that stopped. -/
def Node.cleared : Node → Node × Option Errno
  | .dir mode changed es =>
    if !Access.granted mode .read then (.dir mode changed es, some .permission)
    else
      let (left, e) := Node.clearedEntries
        (Access.granted mode .write && Access.granted mode .search)
        (Access.granted mode .search) es
      (.dir mode changed left, e)
  | n => (n, none)

/-- What is left of entries when they are removed one after another. -/
def Node.clearedEntries (mayChange maySearch : Bool) :
    List (Name × Node) → List (Name × Node) × Option Errno
  | [] => ([], none)
  | (name, n) :: rest =>
    if n.isDir && !maySearch then ((name, n) :: rest, some .permission)
    else match n.cleared with
    | (m, some e) => ((name, m) :: rest, some e)
    | (m, none) =>
      if mayChange then Node.clearedEntries mayChange maySearch rest
      else ((name, m) :: rest, some .permission)

end

namespace FileTree

/-- A directory is gone with all that is in it. A link is gone itself, and nothing else with it. A
directory stays that its path leads to no longer once it is empty; that is no error. -/
def removeTree (t : FileTree) (p : Place) : FileTree × Option IoError :=
  match t.find false p with
  | .error e => (t, some e)
  | .ok (.vacant ..) => (t, some (.os .noEntry))
  | .ok (.entry l n) =>
    if n.isLink then
      match t.unlink p with
      | .ok t => (t, none)
      | .error e => (t, some e)
    else if !n.isDir then (t, some (.os .notDirectory))
    else
      let (left, error) := n.cleared
      let t := t.changeDir l fun _ => left
      match error with
      | some e => (t, some (.os e))
      | none =>
        match t.removeDir p with
        | .ok t => (t, none)
        | .error e => (t, if e = .os .noEntry then none else some e)

/-- Whether two nodes are one file. -/
def sameFile : Node → Node → Bool
  | .file a, .file b => a = b
  | _, _ => false

/-- A node is taken out of one directory and put into another. -/
def move (t : FileTree) (parent : Location) (name : Name) (n : Node) (newParent : Location)
    (newName : Name) : FileTree :=
  (t.changeDir parent (·.erase name)).changeDir newParent (·.put newName n)

/-- What is at `source` is at `dest` instead. A file there is replaced, and so is an empty directory
by a directory. A directory cannot be moved into itself. -/
def rename (t : FileTree) (source dest : Place) : Except IoError FileTree :=
  match t.find false source with
  | .error e => .error e
  | .ok (.vacant ..) => .error (.os .noEntry)
  | .ok (.entry [] _) => .error (.os .busy)
  | .ok (.entry (name :: parent) n) =>
    match t.find false dest with
    | .error e => .error e
    | .ok (.entry [] _) => .error (.os .busy)
    | .ok (.vacant newParent newName) =>
      if (name :: parent).isSuffixOf newParent then .error (.os .invalid)
      else if !t.mayChange parent || !t.mayChange newParent ||
          (parent ≠ newParent && n.isDir && !n.grants .write) then .error (.os .permission)
      else .ok (t.move parent name n newParent newName)
    | .ok (.entry (newName :: newParent) m) =>
      if (name :: parent) = (newName :: newParent) || sameFile n m then .ok t
      else if (name :: parent).isSuffixOf newParent then .error (.os .invalid)
      else if (newName :: newParent).isSuffixOf parent then .error (.os .notEmpty)
      else if !t.mayChange parent || !t.mayChange newParent then .error (.os .permission)
      else if n.isDir && !m.isDir then .error (.os .notDirectory)
      else if !n.isDir && m.isDir then .error (.os .isDirectory)
      else if parent ≠ newParent && n.isDir && !n.grants .write then .error (.os .permission)
      else if m.isDir && !m.entries.isEmpty then .error (.os .notEmpty)
      else .ok (t.move parent name n newParent newName)

end FileTree

end LineShell
