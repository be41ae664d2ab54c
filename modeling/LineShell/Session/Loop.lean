import LineShell.Session.Execute
import LineShell.Text.Grapheme

/-! The loop of a session: lines are read and carried out one after another, and each is reported,
until a line ends the session, the whole shell is ended, or no line is left. -/

namespace LineShell.Session

/-- What was printed: to the terminal and as errors. -/
structure Printed where
  out : Text.Bytes := []
  err : Text.Bytes := []
  deriving DecidableEq, Repr

namespace Printed

def append (p q : Printed) : Printed :=
  { out := p.out ++ q.out, err := p.err ++ q.err }

instance : Append Printed := ⟨append⟩

def toOut (t : Text) : Printed :=
  { out := Text.encode t }

def toErr (t : Text) : Printed :=
  { err := Text.encode t }

end Printed

/-- An error as it is reported. -/
def errorLine (on : Bool) (message : Text) : Text :=
  Text.Style.red.paint on "error" ++ ": " ++ message ++ "\n"

/-- The report on a line that ended: nothing for a success without a text, a line for any other
success, and an error for a failure or a crash. What ends the shell is reported by the system. -/
def report (on : Bool) (line : Text) : Ending → Printed
  | .answered (.success []) => {}
  | .answered (.success t) => .toOut (t ++ "\n")
  | .answered (.failure t) => .toErr (errorLine on t)
  | .crashed _ => .toErr (errorLine on ("unexpected failure while running '" ++ line ++ "'"))
  | .aborted bytes =>
    .toErr ("memory allocation of ".toList ++ Text.decimal bytes ++ " bytes failed\n".toList)

/-- What was written to the terminal directly, and the session without it. -/
def drain (s : Session) : Session × Printed :=
  ({ s with terminalOut := [], terminalErr := [] }, { out := s.terminalOut, err := s.terminalErr })

/-- One line: carried out, then reported. -/
def runLine (host : Program.Host) (around : Surroundings) (s : Session) (line : Text) :
    Session × Printed :=
  let (s, ending) := s.submit host around line
  let (s, direct) := s.drain
  ({ s with aborted := ending.isAborted }, direct ++ report (s.colours around) line ending)

/-- The next line of the input as it was meant. Backspaces take typed characters away. -/
def readLine (s : Session) : Input.Found × Session :=
  match s.input.readLine with
  | (.line t, input) => (.line (Text.trim (Text.withoutBackspaces t)), { s with input })
  | (found, input) => (found, { s with input })

/-- What is said of an input that is no text. -/
def garbledLine : Text := "Input error: stream did not contain valid UTF-8\n"

/-- The lines of a session, one after another. Blank lines are passed over, and no line is read once
the session is over. `prompting` says whether the prompt is printed for each line. Each line takes
a byte or more, so that one step more than the input has bytes is enough. -/
def runLines (host : Program.Host) (around : Surroundings) (prompting : Bool) :
    Nat → Session → Session × Printed
  | 0, s => (s, {})
  | n + 1, s =>
    let before : Printed := if prompting then .toOut (s.prompt around) else {}
    match s.readLine with
    | (.nothing, s) => (s, before)
    | (.garbled, s) => (s, before ++ .toErr garbledLine)
    | (.line line, s) =>
      if line.isEmpty then
        let (s, after) := runLines host around prompting n s
        (s, before ++ after)
      else
        let (s, printed) := s.runLine host around line
        if s.isOver then (s, before ++ printed)
        else
          let (s, after) := runLines host around prompting n s
          (s, before ++ printed ++ after)

end LineShell.Session
