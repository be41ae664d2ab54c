import LineShell.Text.Basic

/-! The commands on files and on the directory of the session, each with the name that its messages
begin with. -/

namespace LineShell

inductive Command where
  | ls | cd | pwd | mkdir | rmdir
  | cat | touch | rm | cp | mv
  | grep | find | head | tail | wc
  deriving DecidableEq, Repr

namespace Command

def name : Command → Text
  | ls => "ls"
  | cd => "cd"
  | pwd => "pwd"
  | mkdir => "mkdir"
  | rmdir => "rmdir"
  | cat => "cat"
  | touch => "touch"
  | rm => "rm"
  | cp => "cp"
  | mv => "mv"
  | grep => "grep"
  | find => "find"
  | head => "head"
  | tail => "tail"
  | wc => "wc"

end Command

end LineShell
