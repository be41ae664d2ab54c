import LineShell.Commands.Run
import LineShell.Help.Page
import LineShell.Line.Invocation
import LineShell.Registry
import LineShell.Session.Columns
import LineShell.Session.Programs

/-! An invocation carried out: by the handler of its name, by the dispatch itself, or by a program
if the name is not reserved. -/

namespace LineShell.Session

/-- The remembered lines, all of them or the last few. -/
def showHistory (h : History) (arguments : List Text) : Answer :=
  match arguments.head? with
  | none => .ok (h.render none)
  | some given =>
    match Text.integer? given with
    | some n => .ok (h.render (some (max n 1).toNat))
    | none => .error (Complaint.invalidLimit given : Failure)

/-- The bytes that clear a terminal and put the cursor into its first column and row. -/
def clearing : Text.Bytes :=
  Text.encode (Text.escape :: "[2J".toList ++ Text.escape :: "[1;1H".toList)

/-- The page for a name, which may have two dashes in front of it. -/
def helpFor (host : Program.Host) (s : Session) (around : Surroundings) (columns : Nat)
    (given : Text) : Session × Outcome :=
  let name := ("--".toList.isPrefixOf? given).getD given
  let width := Help.pageWidth columns
  let on := s.colours around
  match Help.entry? name with
  | some entry => (s, .success (Help.entryPage on width entry))
  | none =>
    match s.describe host around name with
    | (s, some description) => (s, .success (Help.programPage on width name description))
    | (s, none) => (s, .failure (Help.unknownPage on width name))

/-- Help on one command, or the table of all, on a terminal of so many columns. -/
def help (host : Program.Host) (s : Session) (around : Surroundings) (columns : Nat)
    (arguments : List Text) : Session × Ending :=
  match arguments.head? with
  | some given => let (s, o) := s.helpFor host around columns given; (s, .answered o)
  | none => (s, .ofAnswer ((Help.table (s.colours around) (Help.pageWidth columns)).map .ok))

/-- Help, once the columns of the terminal have been asked for. -/
def runHelp (host : Program.Host) (s : Session) (around : Surroundings) (arguments : List Text) :
    Session × Ending :=
  match s.measure host around with
  | (s, .error why) => (s, .crashed why)
  | (s, .ok columns) => s.help host around columns arguments

/-- Whether a listing is one in columns. There is none of what cannot be listed. -/
def listsInColumns (s : Session) (around : Surroundings) (options : Listing.Options)
    (typed : Text) : Bool :=
  !options.long && (s.tree.list (s.resolve around typed)).toOption.isSome

/-- Whether a command has to know the columns of the terminal. -/
def needsColumns (s : Session) (around : Surroundings) (c : Command) (arguments : List Text) :
    Bool :=
  match c with
  | .ls =>
    let (options, target) := Listing.Options.parse arguments
    s.listsInColumns around options (target.getD [])
  | _ => false

/-- Carries out a command on a terminal of so many columns. -/
def runOn (s : Session) (around : Surroundings) (columns : Nat) (c : Command)
    (arguments : List Text) : Session × Ending :=
  let (w, ending) := Commands.run (s.setting around columns) c arguments s.workspace
  ({ s with cwd := w.cwd, tree := w.tree }, ending)

/-- Carries out a command. The columns of the terminal are asked for only if the command has to know
them; what a listing shows has been read by then. -/
def runCommand (host : Program.Host) (s : Session) (around : Surroundings) (c : Command)
    (arguments : List Text) : Session × Ending :=
  if s.needsColumns around c arguments then
    match s.measure host around with
    | (s', .error why) => (s', .crashed why)
    | (s', .ok columns) => (s', (s.runOn around columns c arguments).2)
  else s.runOn around usualColumns c arguments

/-- Answers an invocation that is dispatched to some place. -/
def answer (host : Program.Host) (s : Session) (around : Surroundings) (i : Line.Invocation) :
    Dispatch → Session × Ending
  | .command c => s.runCommand host around c i.arguments
  | .history => (s, .answered (showHistory s.history i.arguments).outcome)
  | .clear => (s.print clearing, .answered (.success []))
  | .echo => (s, .answered (.success (Text.joined [' '] i.arguments)))
  | .help => s.runHelp host around i.arguments
  | .program => let (s, o) := s.runProgram host around i.name i.arguments; (s, .answered o)
  | .notFound => (s, .answered (LineError.commandNotFound i.key).outcome)

/-- Carries out an invocation. -/
def dispatch (host : Program.Host) (s : Session) (around : Surroundings) (i : Line.Invocation) :
    Session × Ending :=
  s.answer host around i (Dispatch.ofKey i.key)

end LineShell.Session
