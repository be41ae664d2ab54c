import LineShell.Commands.Operands
import LineShell.History
import LineShell.Program.Interrupt
import LineShell.Prompt
import LineShell.Session.Input
import LineShell.Variables

/-! The state of a session, and what it finds around it. -/

namespace LineShell

/-- What a session finds and cannot change. What the system tells of the user's account, of the
clocks of the place and of its memory is a part of it. -/
structure Surroundings where
  environment : Variables
  /-- The home directory of the user's account, if the system knows the account. -/
  account : Option Path
  /-- The directory that the shell was started in. -/
  directory : Path
  /-- The columns of the terminal, if there is one that tells them. -/
  columns : Option Nat
  /-- The present time. -/
  clock : Time
  /-- How many seconds the clocks of the place are ahead at a time. -/
  zone : Time → Int
  /-- Whether colours are used where nothing else is said. -/
  colours : Bool
  /-- How long a program is waited for whose output is captured, in milliseconds. -/
  limit : Nat
  /-- Whether so many bytes of memory are granted where they are asked for at once. -/
  memory : Nat → Bool

/-- The home directory: the one that a variable tells, else that of the account. -/
def Surroundings.home? (around : Surroundings) : Option Path :=
  around.environment.home?.or around.account

structure Session where
  cwd : Path
  tree : FileTree
  history : History := .empty
  /-- Whether the session is to end. -/
  ended : Bool := false
  /-- Whether the whole shell has been ended in the middle of a line. -/
  aborted : Bool := false
  /-- Whether colours are used, as long as a line says so. -/
  coloursOverride : Option Bool := none
  interrupt : Program.Interrupt := {}
  input : Input := {}
  /-- What was written to the terminal directly. -/
  terminalOut : Text.Bytes := []
  terminalErr : Text.Bytes := []

/-- The memory that addresses of 47 bits allow, as they are usual. -/
def usualMemory (bytes : Nat) : Bool :=
  bytes < 140737488355328

/-- The usual limit for programs whose output is captured, in milliseconds. -/
def usualLimit : Nat := 30000

namespace Session

/-- Whether no further line is carried out. -/
def isOver (s : Session) : Bool :=
  s.ended || s.aborted

/-- Whether colours are used now. -/
def colours (s : Session) (around : Surroundings) : Bool :=
  s.coloursOverride.getD around.colours

def workspace (s : Session) : Commands.Workspace :=
  { cwd := s.cwd, tree := s.tree }

/-- The setting for a command, on a terminal of so many columns. -/
def setting (s : Session) (around : Surroundings) (columns : Nat) : Commands.Setting :=
  { home := around.home?, now := around.clock, zone := around.zone, terminal := columns,
    colours := s.colours around, memory := around.memory }

/-- The path that a typed one names. -/
def resolve (s : Session) (around : Surroundings) (typed : Text) : Path :=
  Path.resolve around.home? s.cwd typed

/-- The name of the host: from a variable, else from the file that holds it. -/
def host (s : Session) (around : Surroundings) : Text :=
  let fromFile : Option Text :=
    ((s.tree.read ("/etc/hostname".toList : Path)).toOption.map fun bytes =>
      Text.trim (Text.lossy bytes)).filter (!·.isEmpty)
  (around.environment.host?.or fromFile).getD "localhost"

/-- The prompt of the session. -/
def prompt (s : Session) (around : Surroundings) : Text :=
  let v := around.environment
  Prompt.text (s.colours around) v.user (s.host around) around.home? s.cwd

/-- Bytes written to the terminal. -/
def print (s : Session) (bytes : Text.Bytes) : Session :=
  { s with terminalOut := s.terminalOut ++ bytes }

/-- Why a session cannot be started. -/
def noDirectory (e : IoError) : Failure :=
  .io .noCurrentDirectory e

/-- The directory that a session starts in: that of the process, or the home directory where that
is the root. -/
def startDir (home : Option Path) (current : Except IoError Path) : Except Failure Path :=
  match current with
  | .error e => .error (noDirectory e)
  | .ok cwd => .ok (if (Path.parent? cwd).isNone then home.getD cwd else cwd)

end Session

end LineShell
