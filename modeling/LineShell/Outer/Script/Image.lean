import LineShell.Files.Change

/-! What the system starts for a file. Some programs are the system's own. Any other file names, on
its first line, the program that reads it; that one may be a file of the same kind. -/

namespace LineShell.Script

/-- The programs that are the system's own. -/
inductive Resident where
  | shell
  | utility (name : Text)
  deriving DecidableEq, Repr

namespace Resident

def shells : List String :=
  ["dash", "sh"]

def utilities : List String :=
  ["[", "cat", "echo", "env", "false", "kill", "printf", "pwd", "sleep", "test", "true"]

/-- The directory that they are in. -/
def directory : List LineShell.Name :=
  [Name.ofText "usr", Name.ofText "bin"]

/-- The program at a location. -/
def at? (l : Location) : Option Resident :=
  match l with
  | [] => none
  | name :: above =>
    if above.reverse ≠ directory then none
    else if shells.any fun s => Name.ofText s.toList = name then some .shell
    else (utilities.find? fun s => Name.ofText s.toList = name).map fun s => .utility s.toList

/-- A tree with these programs in it, under the names that they go by. -/
def install (now : Time) (t : FileTree) : FileTree :=
  let path : Path := directory.flatMap fun n => '/' :: n.shown
  let t := (t.createDirAll now path).1
  let t := t.changeDir [] (·.put (Name.ofText "bin") (.link "usr/bin" now))
  (shells ++ utilities).foldl (fun t s =>
    (t.newFile directory.reverse (Name.ofText s.toList)
      { bytes := [], mode := 0o755, changed := now }).1) t

end Resident

/-- The number of bytes at the beginning of a file that tell how it is started. -/
def headSize : Nat := 256

def isGapByte (b : UInt8) : Bool :=
  b = 32 || b = 9

/-- The bytes without the gaps at their end. -/
def dropGaps (bytes : Text.Bytes) : Text.Bytes :=
  (bytes.reverse.dropWhile isGapByte).reverse

/-- What stands on the first line of a file behind its mark. A line that goes on behind the bytes
that are looked at counts only if the name of a program ends among them. -/
def firstLine? (bytes : Text.Bytes) : Option Text.Bytes :=
  let head := bytes.take headSize ++ List.replicate (headSize - bytes.length) 0
  match head with
  | 35 :: 33 :: rest =>
    let line := rest.takeWhile fun b => b ≠ 10 && b ≠ 0
    if rest[line.length]? = some 10 then some (dropGaps line)
    else if (rest.dropWhile isGapByte).any fun b => isGapByte b || b = 0 then
      some (dropGaps rest.dropLast)
    else none
  | _ => none

/-- The program that a file names on its first line, and the one argument that may follow. -/
def interpreter? (bytes : Text.Bytes) : Option (Text × Option Text) :=
  match ((firstLine? bytes).getD []).dropWhile isGapByte with
  | [] => none
  | line =>
    let name := line.takeWhile fun b => !isGapByte b && b ≠ 0
    let argument := match line.drop name.length with
      | 0 :: _ => []
      | rest => (rest.dropWhile isGapByte).takeWhile (· ≠ 0)
    some (Text.lossy name, if argument.isEmpty then none else some (Text.lossy argument))

/-- A program that is started, what it is called, and its arguments. -/
structure Image where
  resident : Resident
  called : Text
  arguments : List Text
  deriving DecidableEq, Repr

namespace Image

/-- The most files that may have to do with one start. -/
def depth : Nat := 6

/-- What is started for a file under the name `called`. A file that names a program is handed to it
as an argument, and goes by its path. -/
def of (tree : FileTree) (cwd : Path) : Nat → Path → Text → List Text → Except Errno Image
  | n, path, called, arguments =>
    let place : Place := Path.join cwd path
    match tree.location place, tree.node true place with
    | .error (.os e), _ => .error e
    | .ok l, .ok (.file id) =>
      match tree.files[id]? with
      | none => .error .noEntry
      | some f =>
        if !Access.search.granted f.mode then .error .permission
        else match n, Resident.at? l with
        | 0, _ => .error .tooManyLinks
        | _ + 1, some resident => .ok { resident, called, arguments }
        | n + 1, none =>
          match interpreter? f.bytes with
          | none => .error .notExecutable
          | some (name, argument) =>
            of tree cwd n name name (argument.toList ++ path :: arguments)
    | _, _ => .error .permission

/-- What is started for a path. -/
def atPath (tree : FileTree) (cwd : Path) (path : Path) (arguments : List Text) :
    Except Errno Image :=
  if path.isEmpty then .error .noEntry else of tree cwd depth path path arguments

/-- Errors after which the next directory is tried. -/
def passedOver (e : Errno) : Bool :=
  e = .noEntry || e = .notDirectory

/-- The shell for a file that is no program, where such files are taken for scripts. -/
def orShell (asScript : Bool) (path : Path) (arguments : List Text) (r : Except Errno Image) :
    Except Errno Image :=
  match r with
  | .ok image => .ok image
  | .error e =>
    if asScript && e = .notExecutable then
      .ok { resident := .shell, called := "/bin/sh", arguments := path :: arguments }
    else .error e

/-- What is started for a name in the first of some directories where there is something. `last` is
the error to end with. -/
def inEach (asScript : Bool) (tree : FileTree) (cwd : Path) (name : Text) (arguments : List Text)
    (last : Errno) : List Text → Except Errno Image
  | [] => .error last
  | d :: rest =>
    let path := if d.isEmpty then name else d ++ '/' :: name
    match orShell asScript path arguments (of tree cwd depth path name arguments) with
    | .ok image => .ok image
    | .error e =>
      if e = .permission then inEach asScript tree cwd name arguments e rest
      else if passedOver e then
        inEach asScript tree cwd name arguments (if last = .permission then last else e) rest
      else .error e

/-- The directories that are searched where no variable lists them. -/
def usualDirectories : Text := "/bin:/usr/bin"

/-- What is started for a name: a name with a slash is a path, any other is looked for in the listed
directories, of which an empty one is the current directory. -/
def find (asScript : Bool) (tree : FileTree) (cwd : Path) (listed : Option Text) (name : Text)
    (arguments : List Text) : Except Errno Image :=
  if name.isEmpty || name.contains '/' then
    orShell asScript name arguments (atPath tree cwd name arguments)
  else
    inEach asScript tree cwd name arguments .noEntry
      ((listed.getD usualDirectories).splitOn ':')

end Image

end LineShell.Script
