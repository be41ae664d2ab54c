import LineShell.Session.Loop

/-! The command line of the shell itself: what its arguments ask for, and what comes of it. -/

namespace LineShell.CommandLine

open Session (Printed)

/-- What the arguments ask for. -/
inductive Request where
  | session
  | line (text : Text)
  | missingLine
  | help
  | version
  | unknown (option : Text)
  deriving DecidableEq, Repr

/-- The request of arguments. The words of a line may be several arguments. -/
def Request.ofArguments : List Text → Request
  | [] => .session
  | first :: rest =>
    if first = "-c".toList then
      if rest.isEmpty then .missingLine else .line (Text.joined [' '] rest)
    else if first = "-h".toList ∨ first = "--help".toList then .help
    else if first = "-v".toList ∨ first = "--version".toList then .version
    else .unknown first

/-- What comes of a request: an exit code, what is printed, and the files. -/
structure Result where
  /-- There is none where the shell is ended before it has one. -/
  code : Option Nat
  printed : Printed
  tree : FileTree

def versionName : Text := "Delta Shell v0.1.0"

/-- How the shell is used. -/
def usage (on : Bool) : Text :=
  Text.stacked
    [Text.Style.bold.paint on "Delta Shell - line-oriented command interpreter",
     "",
     "Usage:",
     "  dshell                  Start interactive shell",
     "  dshell -c \"command\"     Execute single command",
     "  dshell -h, --help       Show this help",
     "  dshell -v, --version    Show version",
     "",
     "Environment:",
     "  DSHELL_LOG              Log filter for stderr (default: warn)",
     "",
     "Type 'help' in the shell for built-in commands.",
     ""]

/-- The columns inside the frame that a session begins with. -/
def bannerColumns : Nat := 44

/-- The lines that a session begins with. -/
def banner (on : Bool) : Text :=
  let grey (t : Text) : Text := Text.Style.grey.paint on t
  let stroke (n : Nat) : Text := grey (List.replicate n '─')
  let title := ' ' :: versionName ++ [' ']
  let left := (bannerColumns - title.length) / 2
  let info : Text := "Line-oriented command interpreter"
  let infoLeft := (bannerColumns - info.length) / 2
  let green (t : Text) : Text := Text.Style.green.paint on t
  Text.stacked
    [grey ['╭'] ++ stroke left ++ Text.Style.boldCyan.paint on title ++
       stroke (bannerColumns - left - title.length) ++ grey ['╮'],
     grey ['│'] ++ Text.blanks infoLeft ++ Text.Style.white.paint on info ++
       Text.blanks (bannerColumns - infoLeft - info.length) ++ grey ['│'],
     grey ['╰'] ++ stroke bannerColumns ++ grey ['╯'],
     "  " ++ green "help" ++ " for help, " ++ green "exit" ++ " to exit, " ++
       Text.Style.yellow.paint on "Tab" ++ " for completion",
     "",
     ""]

/-- The error of a session that cannot be started, with what it comes from. -/
def startError (f : Failure) : Text :=
  let causes := match f.chain.drop 1 with
    | [] => []
    | causes => "\n\nCaused by:".toList ++ causes.flatMap fun c => "\n    ".toList ++ c
  "Error: " ++ f.complaint.message ++ causes ++ "\n"

/-- Terminals on which the prompt is printed for lines that are not typed by hand. -/
def plainTerminals : List String :=
  ["dumb", "cons25", "emacs"]

/-- Whether the prompt is printed. -/
def prompting (v : Variables) : Bool :=
  (v.get? "TERM").any fun t => (plainTerminals.map String.toList).contains (t.map Char.toLower)

/-- Carries out one line. -/
def runLine (host : Program.Host) (around : Surroundings) (s : Session) (line : Text) : Result :=
  let (s, ending) := s.execute host around line
  let (s, direct) := s.drain
  let code := match ending with
    | .answered o => some o.exitCode
    | .crashed _ => some 101
    | .aborted _ => none
  { code, printed := direct ++ Session.report (s.colours around) line ending, tree := s.tree }

/-- Carries out the lines of the input. -/
def runSession (host : Program.Host) (around : Surroundings) (s : Session) : Result :=
  let (s', printed) :=
    Session.runLines host around (prompting around.environment) (s.input.size + 1) s
  if s'.aborted then { code := none, printed, tree := s'.tree }
  else { code := some 0, printed := printed ++ .toOut "Goodbye!\n", tree := s'.tree }

/-- Carries out a request in a directory, with an input for the shell and its programs. -/
def run (host : Program.Host) (around : Surroundings) (tree : FileTree)
    (current : Except IoError Path) (arguments : List Text) (given : Text.Bytes) : Result :=
  let input : Input := { left := given }
  let on := around.colours
  let failed (message : Text) : Result := { code := some 1, printed := .toErr message, tree }
  match Request.ofArguments arguments with
  | .missingLine => failed "dshell: -c requires an argument\n"
  | .unknown option => failed ("dshell: unknown option: " ++ option ++ "\n")
  | .help => { code := some 0, printed := .toOut (usage on), tree }
  | .version => { code := some 0, printed := .toOut (versionName ++ "\n"), tree }
  | .line line =>
    match Session.startDir around.home? current with
    | .error f => failed (startError f)
    | .ok cwd => runLine host around { cwd, tree, input } line
  | .session =>
    let greeting : Printed := .toOut (banner on)
    match Session.startDir around.home? current with
    | .error f => { code := some 1, printed := greeting ++ .toErr (startError f), tree }
    | .ok cwd =>
      let r := runSession host around { cwd, tree, input }
      { r with printed := greeting ++ r.printed }

end LineShell.CommandLine
