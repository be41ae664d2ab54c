import LineShell.Command
import LineShell.Files.Errno
import LineShell.Files.Path
import LineShell.Glob.PatternError
import LineShell.Outcome

/-! How the commands of the shell fail: by a complaint of their own, behind which the error of the
system or of a search pattern may stand that it comes from. -/

namespace LineShell

/-- What can be wrong with a path that a command is given. -/
inductive Trouble where
  | noSuchDirectory
  | notADirectory
  | alreadyExists
  | notEmpty
  | noSuchFile
  | notAFile
  | nothingThere
  /-- The command would take the directory if it were given as told. -/
  | directory (remedy : Text)
  deriving DecidableEq, Repr

def Trouble.text : Trouble → Text
  | noSuchDirectory => "No such directory"
  | notADirectory => "Not a directory"
  | alreadyExists => "already exists"
  | notEmpty => "Directory not empty (use rm -r)"
  | noSuchFile => "No such file"
  | notAFile => "Not a file"
  | nothingThere => "No such file or directory"
  | directory remedy => "is a directory (use " ++ remedy ++ ")"

/-- What a command could not do. -/
inductive Action where
  | access (path : Text)
  | create (path : Text)
  | remove (path : Text)
  | touch (path : Text)
  | touchDenied (path : Text)
  | update (path : Text)
  | copy (path : Text)
  | copyTo (source dest : Text)
  | copyInto (path : Text)
  | read (path : Text)
  | move (source dest : Text)
  | openFile (path : Text)
  deriving DecidableEq, Repr

def Action.text : Action → Text
  | access p => "access '" ++ p ++ "'"
  | create p => "create '" ++ p ++ "'"
  | remove p => "remove '" ++ p ++ "'"
  | touch p => "touch '" ++ p ++ "'"
  | touchDenied p => "touch '" ++ p ++ "': Permission denied"
  | update p => "update '" ++ p ++ "'"
  | copy p => "copy '" ++ p ++ "'"
  | copyTo p q => "copy '" ++ p ++ "' to '" ++ q ++ "'"
  | copyInto p => "copy '" ++ p ++ "' into itself"
  | read p => "read '" ++ p ++ "'"
  | move p q => "move '" ++ p ++ "' to '" ++ q ++ "'"
  | openFile p => "open '" ++ p ++ "'"

inductive Complaint where
  /-- An operand is missing; an example shows where it would stand. -/
  | missing (command : Command) (what sample : Text)
  | usage (command : Command) (form sample : Text)
  | trouble (command : Command) (path : Text) (trouble : Trouble)
  | cannot (command : Command) (action : Action)
  | reading (command : Command) (path : Text)
  | invalidPattern (pattern : Text)
  | noFileName (path : Text)
  | optionWithoutNumber (command : Command)
  | invalidLineCount (command : Command) (given : Text)
  | invalidLimit (given : Text)
  | noHome
  | noCurrentDirectory
  deriving DecidableEq, Repr

def Complaint.message : Complaint → Text
  | missing c what sample =>
    c.name ++ ": missing " ++ what ++ ". Example: " ++ c.name ++ " " ++ sample
  | usage c form sample =>
    c.name ++ ": usage: " ++ c.name ++ " " ++ form ++ ". Example: " ++ c.name ++ " " ++ sample
  | trouble c path t => c.name ++ ": " ++ path ++ ": " ++ t.text
  | cannot c action => c.name ++ ": cannot " ++ action.text
  | reading c path => c.name ++ ": error reading " ++ path
  | invalidPattern p => "find: invalid pattern '" ++ p ++ "'"
  | noFileName path => "cannot get filename of '" ++ path ++ "'"
  | optionWithoutNumber c => c.name ++ ": option -n requires a number"
  | invalidLineCount c given => c.name ++ ": invalid number of lines: '" ++ given ++ "'"
  | invalidLimit given => "history: limit must be a number, got '" ++ given ++ "'"
  | noHome => "cd: cannot determine home directory"
  | noCurrentDirectory => "cannot determine current directory"

/-- Where a complaint comes from. -/
inductive Cause where
  | io (error : IoError)
  | pattern (error : Glob.PatternError)
  deriving DecidableEq, Repr

def Cause.message : Cause → Text
  | io e => e.message
  | pattern e => e.message

structure Failure where
  complaint : Complaint
  cause : Option Cause := none
  deriving DecidableEq, Repr

namespace Failure

/-- The complaint, and what it comes from. -/
def chain (f : Failure) : List Text :=
  f.complaint.message :: f.cause.toList.map Cause.message

def message (f : Failure) : Text :=
  Text.joined ": " f.chain

def outcome (f : Failure) : Outcome :=
  .failure f.message

/-- The failure of a complaint that an error of the system is behind. -/
def io (complaint : Complaint) (e : IoError) : Failure :=
  { complaint, cause := some (.io e) }

end Failure

instance : Coe Complaint Failure := ⟨fun c => { complaint := c }⟩

/-- An answer of a command: a text, or the failure instead. -/
abbrev Answer := Except Failure Text

def Answer.outcome : Answer → Outcome
  | .ok t => .success t
  | .error f => f.outcome

/-- How a line ends that comes to an answer, or to none. -/
def Ending.ofAnswer : Except Crash Answer → Ending
  | .ok a => .answered a.outcome
  | .error why => .crashed why

end LineShell
