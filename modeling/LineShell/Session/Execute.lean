import LineShell.Session.Dispatch

/-! A line carried out: read, dispatched, and its message sent to a file if the line says so. -/

namespace LineShell.Session

/-- Writes a message to a file, in the place of what was there or behind it. -/
def writeMessage (t : FileTree) (now : Time) (path : Path) (append : Bool) (message : Text) :
    Except IoError FileTree :=
  let bytes := Text.encode message
  if append then t.append now path bytes else t.overwrite now path bytes

/-- Sends the message of an outcome to a file, and says so. Messages of failures go there too. -/
def redirect (s : Session) (around : Surroundings) (command : Text) (o : Outcome) (path : Path)
    (append : Bool) : Session × Outcome :=
  match writeMessage s.tree around.clock path append o.message with
  | .error e => (s, (LineError.writing path e).outcome)
  | .ok tree =>
    ({ s with tree },
      match o with
      | .success _ => .success ("Output of '" ++ command ++ "' redirected to " ++ path)
      | .failure _ => .failure ("Command '" ++ command ++ "' failed, details in " ++ path))

/-- Whether a line ends the session: nothing stands on it but the name of such a command. -/
def isExit (line : Text) : Bool :=
  Registry.exitCommands.contains (Text.lower (Text.trim line))

/-- Carries out a line that is parsed. A file gets a text without colours; the target is looked up
once the command is done. -/
def carryOut (host : Program.Host) (s : Session) (around : Surroundings) (i : Line.Invocation)
    (r : Line.Redirection) : Session × Ending :=
  match r.output with
  | none => s.dispatch host around i
  | some target =>
    match { s with coloursOverride := some false }.dispatch host around i with
    | (s, .crashed why) => (s, .crashed why)
    | (s, .aborted bytes) => (s, .aborted bytes)
    | (s, .answered o) =>
      let s := { s with coloursOverride := none }
      let (s, o) := s.redirect around i.key o (s.resolve around target) r.append
      (s, .answered o)

/-- Carries out a line. -/
def execute (host : Program.Host) (s : Session) (around : Surroundings) (line : Text) :
    Session × Ending :=
  if isExit line then ({ s with ended := true }, .answered (.success []))
  else match Line.parse line with
  | .error e => (s, .answered e.outcome)
  | .ok (i, r) => s.carryOut host around i r

/-- Remembers a line and carries it out. -/
def submit (host : Program.Host) (s : Session) (around : Surroundings) (line : Text) :
    Session × Ending :=
  { s with history := s.history.add line }.execute host around line

end LineShell.Session
