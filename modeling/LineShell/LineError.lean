import LineShell.Files.Errno
import LineShell.Outcome

/-! The ways in which a line fails outside the commands that the shell carries out itself: it may
not parse, name nothing that can be run, have its program fail, or have nowhere to write to. -/

namespace LineShell

inductive LineError where
  | missingTarget (operator : Text)
  | notImplemented (operator : Text)
  | unsupported (operator : Text)
  | duplicate (first second : Text)
  | emptyCommand
  | commandNotFound (name : Text)
  | notOnPath (name : Text)
  | exitStatus (status : Text)
  | failedWithOutput (status output : Text)
  | timeout (name : Text) (milliseconds : Nat)
  | interrupted (name : Text)
  | spawn (cause : IoError)
  | writing (path : Text) (cause : IoError)
  deriving DecidableEq, Repr

namespace LineError

/-- The sentence of an error. A time limit is told in whole seconds. -/
def message : LineError → Text
  | missingTarget op => "Operator '" ++ op ++ "' requires a filename"
  | notImplemented op => "Redirection '" ++ op ++ "' is not implemented"
  | unsupported op => "Unsupported redirection operator '" ++ op ++ "'"
  | duplicate first second =>
    "Multiple output redirections ('" ++ first ++ "' and '" ++ second ++ "')"
  | emptyCommand => "Empty command"
  | commandNotFound name =>
    "Command '" ++ name ++ "' not found. Type 'help' for a list of commands"
  | notOnPath name => "Command '" ++ name ++ "' not found in system PATH"
  | exitStatus status => "Command exited with error: " ++ status
  | failedWithOutput status output => "Command failed with code " ++ status ++ "\n" ++ output
  | timeout name limit =>
    "Command '" ++ name ++ "' exceeded time limit of " ++ Text.decimal (limit / 1000) ++ " seconds"
  | interrupted name => "Command '" ++ name ++ "' interrupted by user"
  | spawn cause => "Execution error: " ++ cause.message
  | writing path cause => "Error writing to file " ++ path ++ ": " ++ cause.message

def outcome (e : LineError) : Outcome :=
  .failure e.message

end LineError

end LineShell
