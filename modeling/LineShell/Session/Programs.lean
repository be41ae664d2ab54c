import LineShell.Help.Description
import LineShell.Program.Class
import LineShell.Program.Host
import LineShell.Program.Lookup
import LineShell.Session.Basic

/-! Programs in a session. One that needs the terminal gets it; of any other the output is captured
within a time limit. The flag for Ctrl+C is cleared before a program is started and read once it is
done with, so that an interrupt counts for the program that it hit. -/

namespace LineShell.Session

open Program

/-- The program that a name stands for, in lowercase if need be. -/
def programFor (s : Session) (around : Surroundings) (name : Text) : Option Path :=
  (locate s.tree around.environment s.cwd name).or
    (locateFolded s.tree around.environment s.cwd name)

/-- How a program is started in the session, with the input of the session. Without a time limit
it has the terminal. -/
def launch (s : Session) (around : Surroundings) (program : Path) (arguments : List Text)
    (limit : Option Nat) : Launch :=
  { program, arguments, cwd := s.cwd, environment := around.environment, clock := around.clock,
    input := s.input.left, terminal := limit.isNone && around.columns.isSome, limit }

/-- The session with the files that a program has left, and Ctrl+C if it arrived meanwhile. -/
def after (s : Session) (r : Report) : Session :=
  { s with tree := r.tree, interrupt := s.interrupt.arrive r.interrupt }

/-- The session after a program that had its input. -/
def afterReading (s : Session) (r : Report) : Session :=
  { s.after r with input := s.input.after r.taken }

/-- The session after a program that had the terminal. -/
def afterAttached (s : Session) (r : Report) : Session :=
  { s.afterReading r with
    terminalOut := s.terminalOut ++ r.out
    terminalErr := s.terminalErr ++ r.err }

/-- The session with the flag for Ctrl+C cleared. -/
def calm (s : Session) : Session :=
  { s with interrupt := s.interrupt.take.2 }

/-- Runs a program with the terminal. -/
def runAttached (host : Host) (s : Session) (around : Surroundings) (name : Text) (program : Path)
    (arguments : List Text) : Session × Outcome :=
  let s := s.calm
  match host s.tree (s.launch around program arguments none) with
  | .error e => (s, (LineError.spawn e).outcome)
  | .ok report =>
    let s := s.afterAttached report
    (s.calm, judgeAttached name report.status s.interrupt.raised)

/-- Runs a program for its output. The flag is not read for one that cannot be waited for. -/
def runCaptured (host : Host) (s : Session) (around : Surroundings) (name : Text) (program : Path)
    (arguments : List Text) : Session × Outcome :=
  let s := s.calm
  match host s.tree (s.launch around program arguments (some around.limit)) with
  | .error e => (s, (LineError.spawn e).outcome)
  | .ok report =>
    let s := s.afterReading report
    match report.watched.run with
    | .error e => (s, (LineError.spawn e).outcome)
    | .ok run => (s.calm, judgeCaptured name run s.interrupt.raised around.limit)

/-- Runs the program that a name stands for. -/
def runProgram (host : Host) (s : Session) (around : Surroundings) (name : Text)
    (arguments : List Text) : Session × Outcome :=
  match s.programFor around name with
  | none => (s, (LineError.notOnPath name).outcome)
  | some program =>
    if (classify name arguments).attached then s.runAttached host around name program arguments
    else s.runCaptured host around name program arguments

/-- Runs a program apart from the terminal and with nothing to read. Ctrl+C is left for whoever asks
next. -/
def capture (host : Host) (s : Session) (around : Surroundings) (program : Path)
    (arguments : List Text) (limit : Nat) : Session × Except IoError Captured :=
  match host s.tree { s.launch around program arguments (some limit) with input := [] } with
  | .error e => (s, .error e)
  | .ok report => (s.after report, report.watched.run)

/-- How long a program may take to describe itself, in milliseconds. -/
def probeLimit : Nat := 5000

/-- What a program writes when it is asked something and exits without an error. -/
def probe (host : Host) (s : Session) (around : Surroundings) (program : Path)
    (arguments : List Text) : Session × Option Text :=
  match s.capture host around program arguments probeLimit with
  | (s, .ok (.exited status output)) => (s, if status.succeeded then some output else none)
  | (s, _) => (s, none)

/-- The description of a program: a line of its own help, else the summary of its manual page. -/
def describe (host : Host) (s : Session) (around : Surroundings) (name : Text) :
    Session × Option Text :=
  match locate s.tree around.environment s.cwd name with
  | none => (s, none)
  | some program =>
    let (s, help) := s.probe host around program ["--help".toList]
    match help.bind Help.descriptionLine? with
    | some line => (s, some line)
    | none =>
      match locate s.tree around.environment s.cwd "man" with
      | none => (s, none)
      | some man =>
        let (s, page) := s.probe host around man ["-f".toList, name]
        (s, page.bind Help.summary?)

end LineShell.Session
