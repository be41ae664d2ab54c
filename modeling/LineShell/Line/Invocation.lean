import LineShell.Line.Redirection
import LineShell.Text.Lowercase

/-! A command line ready to be carried out: a name, arguments, and a redirection. -/

namespace LineShell.Line

/-- A command by its name as it was typed, and its arguments. -/
structure Invocation where
  name : Text
  arguments : List Text
  deriving DecidableEq, Repr

namespace Invocation

/-- The name in the form in which commands are looked up. -/
def key (i : Invocation) : Text :=
  Text.lower i.name

/-- The first word names the command. -/
def ofWords : List Text → Except LineError Invocation
  | [] => .error .emptyCommand
  | name :: arguments => .ok { name, arguments }

end Invocation

/-- The invocation and the redirection of a line. -/
def parse (line : Text) : Except LineError (Invocation × Redirection) := do
  let (words, redirection) ← resolve (tokenize line)
  let invocation ← Invocation.ofWords words
  return (invocation, redirection)

end LineShell.Line
