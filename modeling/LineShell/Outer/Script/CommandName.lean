import LineShell.Outer.Script.Reading
import LineShell.Outer.Script.Utility

/-! What the names of commands stand for in a script. -/

namespace LineShell.Script.Process

/-- What is said of a program that cannot be started, and the status then. -/
def notStarted (e : Errno) : Text × Nat :=
  let missing := e = .noEntry || e = .notDirectory
  (if missing then "not found" else e.sentence,
    if missing || e = .tooManyLinks || e = .nameTooLong then 127 else 126)

/-- The directories where commands are looked for. -/
def searchPath (p : Process) : List Text :=
  ((p.environment.get? "PATH").getD []).splitOn ':'

/-- A path in one of the directories where commands are looked for. -/
def inDirectory (directory name : Text) : Text :=
  if directory.isEmpty then name else directory ++ '/' :: name

/-- The path that a name of a command stands for. -/
def commandPath (p : Process) (name : Text) : Except Errno Path :=
  if name.contains '/' then .ok name
  else search .noEntry p.searchPath
where
  search (last : Errno) : List Text → Except Errno Path
    | [] => .error last
    | d :: rest =>
      let path := inDirectory d name
      if name.isEmpty then .error last
      else match p.tree.node true (p.place path) with
      | .ok n =>
        if p.tree.isFile (p.place path) && p.tree.grants .search n then .ok path
        else search .permission rest
      | .error (.os e) =>
        search (if e = .noEntry || e = .notDirectory then last else e) rest
      | .error _ => search last rest

/-- The utilities that a failed redirection or a fault in an argument ends the script for. -/
def isSpecial (name : Text) : Bool :=
  (Reading.specialNames.map String.toList).contains name

/-- What a name of a command is, in words and as a command that can be carried out. -/
def kindOf (p : Process) (name : Text) : Option (Text × Text) :=
  if (Reading.reserved.map String.toList).contains name then some (" is a shell keyword", name)
  else if (p.functions.lookup name).isSome then some (" is a shell function", name)
  else if isSpecial name then some (" is a special shell builtin", name)
  else if (builtInNames.map String.toList).contains name then some (" is a shell builtin", name)
  else match p.commandPath name with
    | .ok path =>
      if p.tree.isFile (p.place path) then some (" is ".toList ++ path, path) else none
    | .error _ => none

/-- Says what commands are. -/
def type (p : Process) (names : List Text) : Process :=
  names.foldl (fun p name =>
    match p.kindOf name with
    | some (words, _) => p.writeTo p.out (Text.encode (name ++ words ++ ['\n']))
    | none => (p.writeTo p.out (Text.encode (name ++ ": not found\n"))).withStatus 127)
    (p.withStatus 0)

end LineShell.Script.Process
