import LineShell.Outer.Script.Process

/-! Signals: how scripts send them, and what is done when they come in. -/

namespace LineShell.Script

/-- Signals by name. -/
def signalNames : List (String × Nat) :=
  [("EXIT", 0), ("HUP", 1), ("INT", 2), ("QUIT", 3), ("ILL", 4), ("TRAP", 5), ("ABRT", 6),
   ("BUS", 7), ("FPE", 8), ("KILL", 9), ("USR1", 10), ("SEGV", 11), ("USR2", 12), ("PIPE", 13),
   ("ALRM", 14), ("TERM", 15), ("STKFLT", 16), ("CHLD", 17), ("CONT", 18), ("STOP", 19),
   ("TSTP", 20), ("TTIN", 21), ("TTOU", 22), ("URG", 23), ("XCPU", 24), ("XFSZ", 25),
   ("VTALRM", 26), ("PROF", 27), ("WINCH", 28), ("POLL", 29), ("PWR", 30), ("SYS", 31)]

/-- A signal by its number or its name. -/
def signal? (t : Text) : Option Nat :=
  match Text.digits? t with
  | some n => if n < 65 then some n else none
  | none => (signalNames.find? fun (s, _) => s.toList = t).map (·.2)

/-- The name of a signal. -/
def signalName (n : Nat) : Text :=
  match signalNames.find? fun (_, m) => m = n with
  | some (s, _) => s.toList
  | none => Text.decimal n

/-- What is said of a program that a signal has ended. -/
def signalSentence (n : Nat) : Text :=
  let sentences : List (Nat × String) :=
    [(1, "Hangup"), (3, "Quit"), (4, "Illegal instruction"), (5, "Trace/breakpoint trap"),
     (6, "Aborted"), (7, "Bus error"), (8, "Floating point exception"), (9, "Killed"),
     (10, "User defined signal 1"), (11, "Segmentation fault"), (12, "User defined signal 2"),
     (14, "Alarm clock"), (15, "Terminated"), (16, "Stack fault"),
     (24, "CPU time limit exceeded"), (25, "File size limit exceeded"),
     (26, "Virtual timer expired"), (27, "Profiling timer expired"), (29, "I/O possible"),
     (30, "Power failure"), (31, "Bad system call")]
  match sentences.lookup n with
  | some s => s.toList
  | none => "Signal " ++ Text.decimal n

/-- A text as a script would spell it, between single quotes. -/
def inQuotes (t : Text) : Text :=
  '\'' :: (t.flatMap fun c => if c = '\'' then "'\"'\"'".toList else [c]) ++ ['\'']

namespace Process

/-- A signal sent to the script itself. One that is trapped is kept for its action; of the others
some are passed over, and some stop the script for good. -/
def receive (p : Process) (signal : Nat) : Process :=
  if p.inner then { p with pending := p.pending ++ [signal] }
  else
  let trapped := if signal = 0 || signal = 9 || signal = 19 then none else p.traps.lookup signal
  match trapped with
  | some action => if action.isEmpty then p else { p with pending := p.pending ++ [signal] }
  | none =>
    if [0, 17, 18, 23, 28].contains signal then p
    else if [19, 20, 21, 22].contains signal then { p with flow := .unfinished }
    else { p with flow := .killed signal }

/-- Sends a signal to the script or to the shell. There is nothing else to send one to. -/
def send (p : Process) (signal : Nat) (target : Text) : Process :=
  if target = ownNumber then p.receive signal
  else if target = parentNumber then
    if signal = Program.Status.interruptSignal then { p with signalled := true } else p
  else if target.head? = some '%' then p.complainOf "kill" ("No such job: " ++ target) 2
  else
    match Text.integer? target with
    | some _ => (p.warn (p.name ++ ": " ++ Text.decimal p.line ++
        ": kill: No such process\n")).withStatus 1
    | none => p.complainOf "kill" ("Illegal number: " ++ target) 2

def killUsage : Text :=
  "Usage: kill [-s sigspec | -signum | -sigspec] [pid | job]... or\nkill -l [exitstatus]"

def kill (p : Process) (arguments : List Text) : Process :=
  let all (signal : Nat) (targets : List Text) : Process :=
    if targets.isEmpty then p.complainOf "kill" killUsage 2
    else targets.foldl (fun p target => p.send signal target) (p.withStatus 0)
  match arguments with
  | ['-', 's'] :: name :: rest =>
    match signal? name with
    | some n => all n rest
    | none => p.complainOf "kill" ("invalid signal number or name: " ++ name) 2
  | [['-', 's']] => p.complainOf "kill" "No arg for -s option" 2
  | ['-', 'l'] :: name :: _ =>
    let n := ((Text.digits? name).getD 0) % 128
    p.say "kill" (Text.encode (signalName n ++ "\n"))
  | ['-', '-'] :: rest => all 15 rest
  | ('-' :: name) :: rest =>
    match signal? name with
    | some n => all n rest
    | none => p.complainOf "kill" ("Illegal option -" ++ name.take 1) 2
  | rest => all 15 rest

/-- The traps as they are listed. -/
def trapLines (p : Process) : Text :=
  let numbers := (List.range 65).filter fun n => (p.traps.lookup n).isSome
  numbers.flatMap fun n =>
    "trap -- ".toList ++ inQuotes ((p.traps.lookup n).getD []) ++ ' ' :: signalName n ++ ['\n']

/-- Sets what is done when signals come in. A dash, or no action at all, gives them their own effect
back. -/
def trap (p : Process) (arguments : List Text) : Process :=
  let arguments := if arguments.head? = some ['-', '-'] then arguments.drop 1 else arguments
  match arguments with
  | [] => p.say "trap" (Text.encode p.trapLines)
  | first :: rest =>
    if first.head? = some '-' && first.length > 1 then
      p.giveUp ("trap: Illegal option " ++ first.take 2)
    else
      let (action, names) := if rest.isEmpty then (['-'], [first]) else (first, rest)
      names.foldl (fun p name =>
        match signal? name with
        | none =>
          if p.status = 0 then (p.warn ("trap: " ++ name ++ ": bad trap")).withStatus 1 else p
        | some n =>
          let others := p.traps.filter (·.1 ≠ n)
          { p with traps := if action = ['-'] then others else (n, action) :: others })
        (p.withStatus 0)

end Process

end LineShell.Script
