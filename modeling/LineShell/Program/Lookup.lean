import LineShell.Files.Tree
import LineShell.Text.Lowercase
import LineShell.Variables

/-! Where programs are found. A name with a slash is a path; other names are looked for in the
directories that the variable `PATH` lists. -/

namespace LineShell.Program

/-- Whether a path leads to a file that can be run. -/
def isProgram (t : FileTree) (p : Path) : Bool :=
  t.isFile p && (t.node true p).toOption.any (t.grants .search)

/-- The path that a name with a slash stands for in a directory. -/
def fromDirectory (cwd : Path) (name : Text) : Path :=
  if Path.isAbsolute name then name
  else
    ((Path.components name).dropWhile (· = .here)).foldl (fun p c => Path.join p c.text) cwd

/-- A directory of the list, with a tilde in front expanded. -/
def searched (home : Option Path) (directory : Path) : Path :=
  match Path.components directory, home with
  | .name ['~'] :: rest, some home => rest.foldl (fun p c => Path.join p c.text) home
  | _, _ => directory

/-- The paths that may be meant by a name, in the order in which they are tried. A single component
with a slash behind it is no program. -/
def candidates (v : Variables) (cwd : Path) (name : Text) : List Path :=
  if name.contains '/' then
    if (Path.components name).length > 1 then [fromDirectory cwd name] else []
  else match v.get? "PATH" with
    | none => []
    | some list => (list.splitOn ':').map fun d => Path.join (searched v.home? d) name

/-- The program that a name stands for. -/
def locate (t : FileTree) (v : Variables) (cwd : Path) (name : Text) : Option Path :=
  (candidates v cwd name).find? (isProgram t)

/-- The program that the lowercase of a name stands for, where that is another name. -/
def locateFolded (t : FileTree) (v : Variables) (cwd : Path) (name : Text) : Option Path :=
  let lower := Text.lower name
  if lower = name then none else locate t v cwd lower

end LineShell.Program
