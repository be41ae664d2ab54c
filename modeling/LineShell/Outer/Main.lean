import LineShell.CommandLine
import LineShell.Files.Change
import LineShell.Outer.Script.Host

/-! The program: it reads its arguments, its input and its variables, and prints what comes of them.
The files are those of a tree of its own, which begins with the programs of the system, the current
directory and the home directory, and lasts as long as the program. This is the outer layer, which
fills in what is a parameter elsewhere; no result is about it. -/

namespace LineShell.Main

/-- The variables that are taken over. -/
def variableNames : List String :=
  ["HOME", "PATH", "USER", "USERNAME", "HOSTNAME", "COMPUTERNAME", "TERM", "NO_COLOR",
   "CLICOLOR_FORCE"]

def environment : IO Variables :=
  variableNames.filterMapM fun name => do
    return (← IO.getEnv name).map fun value => (name.toList, value.toList)

/-- The code of a program that is ended by the system. -/
def abortCode : Nat := 134

/-- The files to begin with. -/
def startTree (now : Time) (directories : List Path) : FileTree :=
  let empty : FileTree := { root := .dir newDirMode now [], files := [] }
  directories.foldl (fun t (p : Path) => (t.createDirAll now p).1)
    (Script.Resident.install now empty)

/-- All that the program is given to read. -/
partial def given (input : IO.FS.Stream) (before : ByteArray) : IO ByteArray := do
  let bytes ← input.read 65536
  if bytes.isEmpty then return before else given input (before ++ bytes)

def printBytes (stream : IO.FS.Stream) (bytes : Text.Bytes) : IO Unit :=
  stream.write (ByteArray.mk bytes.toArray)

/-- Carries out the request of the arguments, and gives the exit code. -/
def run (arguments : List String) : IO UInt32 := do
  let v ← environment
  let current := (← IO.currentDir).toString.toList
  let around : Surroundings :=
    { environment := v, account := none, directory := current, columns := none, clock := 0,
      zone := fun _ => 0, colours := v.wantsColours, limit := usualLimit, memory := usualMemory }
  let tree := startTree around.clock (current :: around.home?.toList)
  let requests := arguments.map String.toList
  let stdin ← IO.getStdin
  let input ← if !requests.isEmpty && (← stdin.isTty) then pure ByteArray.empty
    else given stdin ByteArray.empty
  let result := CommandLine.run Script.host around tree (.ok current) requests input.toList
  printBytes (← IO.getStdout) result.printed.out
  printBytes (← IO.getStderr) result.printed.err
  return UInt32.ofNat (result.code.getD abortCode)

end LineShell.Main

def main (arguments : List String) : IO UInt32 :=
  LineShell.Main.run arguments
