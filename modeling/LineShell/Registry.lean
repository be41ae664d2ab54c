import LineShell.Command
import LineShell.Text.Lowercase

/-! The names that the shell reserves, in whatever case they are typed: those of the table of
handlers, those that the dispatch answers itself, and those that end a session. What an invocation
is dispatched to depends on its name alone. -/

namespace LineShell

namespace Registry

/-- The table: each name with the command that handles it. -/
def handlers : List (Text × Command) :=
  [("ls", .ls), ("dir", .ls), ("cd", .cd), ("pwd", .pwd), ("mkdir", .mkdir), ("rmdir", .rmdir),
   ("cat", .cat), ("touch", .touch), ("rm", .rm), ("cp", .cp), ("mv", .mv), ("grep", .grep),
   ("find", .find), ("head", .head), ("tail", .tail), ("wc", .wc)]

/-- The names in the table. -/
def keys : List Text :=
  handlers.map Prod.fst

/-- The names that the dispatch answers itself. -/
def pseudoCommands : List Text :=
  ["history", "clear", "cls", "echo", "help"]

/-- The names that end a session where they stand alone on a line. -/
def exitCommands : List Text :=
  ["exit", "quit"]

/-- The command that handles a typed name. -/
def handler? (typed : Text) : Option Command :=
  handlers.lookup (Text.lower typed)

/-- Whether a typed name is reserved. -/
def reserves (typed : Text) : Bool :=
  let lower := Text.lower typed
  keys.contains lower || pseudoCommands.contains lower || exitCommands.contains lower

/-- The reserved names in order, where the table gives its names in some order of its own. -/
def namesFrom (keys : List Text) : List Text :=
  (keys ++ pseudoCommands ++ exitCommands).mergeSort Text.le

def names : List Text :=
  namesFrom keys

end Registry

/-- What an invocation is dispatched to. -/
inductive Dispatch where
  | command (c : Command)
  | history
  | clear
  | echo
  | help
  | program
  | notFound
  deriving DecidableEq, Repr

/-- What an invocation of a name in lowercase is dispatched to: the table comes first, and a program
is what is left to a name that is not reserved. -/
def Dispatch.ofKey (key : Text) : Dispatch :=
  match Registry.handler? key with
  | some c => .command c
  | none =>
    if key = "history".toList then .history
    else if key = "clear".toList ∨ key = "cls".toList then .clear
    else if key = "echo".toList then .echo
    else if key = "help".toList then .help
    else if Registry.reserves key then .notFound
    else .program

end LineShell
