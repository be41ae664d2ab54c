import LineShell.Outer.Script.Field
import LineShell.Outer.Script.Image
import LineShell.Outer.Script.Lexeme
import LineShell.Outer.Script.Output
import LineShell.Outer.Script.Signal
import LineShell.Outer.Script.Test

/-! The utilities that scripts have without any other program, and those that are programs of the
system. -/

namespace LineShell.Script

/-- A time in milliseconds, as seconds with an optional fraction and unit. -/
def milliseconds (t : Text) : Nat :=
  let whole := t.takeWhile Char.isDigit
  let rest := t.dropWhile Char.isDigit
  let (part, unit) := match rest with
    | '.' :: rest => (rest.takeWhile Char.isDigit, rest.dropWhile Char.isDigit)
    | _ => ([], rest)
  let thousandths := (Text.digits? ((part ++ ['0', '0', '0']).take 3)).getD 0
  let factor := match unit with
    | ['m'] => 60
    | ['h'] => 3600
    | ['d'] => 86400
    | _ => 1
  (((Text.digits? whole).getD 0) * 1000 + thousandths) * factor

namespace Process

/-- Whether a test of one operand holds. -/
def holds (p : Process) (operator operand : Text) : Except Text Bool :=
  let place := p.place operand
  let grants (access : Access) : Bool :=
    (p.tree.node true place).toOption.any (p.tree.grants access)
  match operator.drop 1 with
  | ['n'] => .ok !operand.isEmpty
  | ['z'] => .ok operand.isEmpty
  | ['e'] => .ok (p.tree.isThere place)
  | ['f'] => .ok (p.tree.isFile place)
  | ['d'] => .ok (p.tree.isDir place)
  | ['L'] | ['h'] => .ok (p.tree.isLink place)
  | ['s'] => .ok (p.tree.isDir place || (p.tree.read place).toOption.any (!·.isEmpty))
  | ['r'] => .ok (grants .read)
  | ['w'] => .ok (grants .write)
  | ['x'] => .ok (grants .search)
  | ['O'] | ['G'] => .ok (p.tree.isThere place)
  | ['c'] => .ok (p.tree.isThere place && !p.tree.isFile place && !p.tree.isDir place)
  | ['t'] => (Test.number operand).map fun n => n = 1 && p.terminal && p.out = .stream .out
  | _ => .ok false

/-- Carries out a test. -/
def test (p : Process) (utility : Text) (arguments : List Text) : Process :=
  match Test.run p.holds arguments with
  | .ok b => p.withStatus (if b then 0 else 1)
  | .error m => p.complainOf utility m 2

/-- Carries out a test that is to end with a bracket. -/
def bracketTest (p : Process) (arguments : List Text) : Process :=
  if arguments.getLast? = some [']'] then p.test "[" arguments.dropLast
  else p.complainOf "[" "missing ]" 2

/-- A line of an input, whether it has its end, and what follows. A backslash takes from the next
character what it stands for, and from the end of a line that it is one, unless it is plain. -/
def inputLine (isPlain : Bool) : Nat → Text → Field × Bool × Nat
  | taken, [] => ([], false, taken)
  | taken, '\n' :: _ => ([], true, taken + 1)
  | taken, '\\' :: rest =>
    if isPlain then
      let (more, whole, taken) := inputLine isPlain (taken + 1) rest
      ({ char := '\\', quoted := false } :: more, whole, taken)
    else match rest with
      | [] => ([], false, taken + 1)
      | '\n' :: rest => inputLine isPlain (taken + 2) rest
      | c :: rest =>
        let (more, whole, taken) := inputLine isPlain (taken + 2) rest
        ({ char := c, quoted := true } :: more, whole, taken)
  | taken, c :: rest =>
    let (more, whole, taken) := inputLine isPlain (taken + 1) rest
    ({ char := c, quoted := false } :: more, whole, taken)

/-- Gives the words of a line to variables; the last one takes what is left. -/
def assignWords (p : Process) (separators : Text) (line : Field) : List Text → Process
  | [] => p
  | name :: rest =>
    let divides (m : Mark) : Bool := !m.quoted && separators.contains m.char
    let isBlank (m : Mark) : Bool := divides m && " \t\n".toList.contains m.char
    let line := line.dropWhile isBlank
    let word := line.takeWhile (!divides ·)
    let after := (line.drop word.length).dropWhile isBlank
    let next := match after with
      | m :: more => if divides m then more.dropWhile isBlank else after
      | [] => []
    if rest.isEmpty then
      let last := if next.isEmpty then word else (line.reverse.dropWhile isBlank).reverse
      p.assign name (Field.text last)
    else (p.assign name (Field.text word)).assignWords separators next rest

/-- Reads a line of the input into variables. A line without its end is the last one. -/
def readLine (p : Process) (arguments : List Text) : Process :=
  let isOption (t : Text) : Bool := t.head? = some '-' && t.length > 1
  let options := arguments.takeWhile isOption
  let names := arguments.dropWhile isOption
  let names := if options.getLast? = some ['-', 'p'] then names.drop 1 else names
  let bad := (options.flatMap (·.drop 1)).find? fun c => !"rp-".toList.contains c
  match bad, names.find? (!Lexeme.isName ·) with
  | some c, _ => p.complainOf "read" ("Illegal option -" ++ [c]) 2
  | none, some name => p.complainOf "read" (name ++ ": bad variable name") 2
  | none, none =>
    if names.isEmpty then p.complainOf "read" "arg count" 2
    else
      let isPlain := (options.flatMap (·.drop 1)).contains 'r'
      let given := Text.decode p.input
      let (line, whole, taken) := inputLine isPlain 0 (Text.shown given)
      let size := (Name.bytes (given.take taken)).length
      let p := { p.withStatus (if whole then 0 else 1) with input := p.input.drop size }
      p.assignWords p.separators line names

/-- The arguments of `export` and `readonly`. -/
def mark (p : Process) (utility : Text) (arguments : List Text) : Process :=
  let arguments := arguments.filter fun a => a.head? ≠ some '-'
  arguments.foldl (fun p a =>
    let name := a.takeWhile (· ≠ '=')
    if !p.goesOn then p
    else if !Lexeme.isName name then p.giveUp (utility ++ ": " ++ name ++ ": bad variable name")
    else
      let p := if a.contains '=' then p.assign name ((a.dropWhile (· ≠ '=')).drop 1) else p
      if utility = "readonly".toList then { p with fixed := name :: p.fixed }
      else { p with shared := name :: p.shared })
    (p.withStatus 0)

/-- Variables that a function has for itself. -/
def localVariables (p : Process) (arguments : List Text) : Process :=
  match p.outer with
  | none => p.giveUp "local: not in a function"
  | some saved =>
    let name (a : Text) : Text := a.takeWhile (· ≠ '=')
    let p := { p.withStatus 0 with
      outer := some ((arguments.map fun a => (name a, p.environment.get? (name a))) ++ saved) }
    arguments.foldl (fun p a =>
      if a.contains '=' then p.assign (name a) ((a.dropWhile (· ≠ '=')).drop 1) else p) p

def unset (p : Process) (arguments : List Text) : Process :=
  let ofFunctions := arguments.head? = some ['-', 'f']
  let names := arguments.filter fun a => a.head? ≠ some '-'
  if ofFunctions then
    { p.withStatus 0 with functions := p.functions.filter fun (k, _) => !names.contains k }
  else match names.find? p.fixed.contains with
    | some name => p.giveUp ("unset: " ++ name ++ ": is read only")
    | none => names.foldl (fun p name => p.keep name none) (p.withStatus 0)

/-- Goes on in another directory. -/
def enter (p : Process) (arguments : List Text) : Process :=
  let isOption (t : Text) : Bool := t = ['-', 'L'] || t = ['-', 'P'] || t = ['-', '-']
  let isPhysical := (arguments.takeWhile isOption).getLast? = some ['-', 'P']
  let typed := (arguments.dropWhile isOption).head?.getD ((p.environment.get? "HOME").getD [])
  let back := typed = ['-']
  let typed := if back then (p.environment.get? "OLDPWD").getD [] else typed
  let before := Text.lossy p.directory
  let target := if isPhysical then p.place typed else (Path.resolve none before typed : Path)
  let p := p.withStatus 0
  match p.tree.node true target with
  | .ok n =>
    if n.isDir && n.grants .search then
      let location := (p.tree.location target).toOption
      let shown := if isPhysical then (location.map Location.shown).getD typed else target.path
      let p := { p with cwd := shown }
      let p := (p.keep "OLDPWD" (some before)).keep "PWD" (some shown)
      if back then p.say "cd" (Text.encode (shown ++ ['\n'])) else p
    else p.complain ("cd: can't cd to " ++ typed) 2
  | .error _ => p.complain ("cd: can't cd to " ++ typed) 2

/-- Goes on as told with a number for the status, if one is given. -/
def endWith (p : Process) (name : Text) (arguments : List Text) (flow : Flow) : Process :=
  match arguments with
  | [] => { p with flow }
  | t :: _ =>
    match Text.digits? t with
    | some n => { p.withStatus (n % 256) with flow }
    | none => p.giveUp (name ++ ": Illegal number: " ++ t)

/-- Leaves or repeats as many loops as told, of those that there are. -/
def leave (p : Process) (name : Text) (arguments : List Text) (flow : Nat → Flow) : Process :=
  let go (n : Nat) : Process :=
    let p := p.withStatus 0
    if p.loops = 0 then p else { p with flow := flow (min n p.loops) }
  match arguments.head? with
  | none => go 1
  | some t =>
    match Text.digits? t with
    | some (n + 1) => go (n + 1)
    | _ => p.giveUp (name ++ ": Illegal number: " ++ t)

/-- Drops the first parameters. -/
def shift (p : Process) (arguments : List Text) : Process :=
  match arguments.head?.map Text.digits? with
  | some none => p.giveUp ("shift: Illegal number: " ++ arguments.head?.getD [])
  | n =>
    let n := (n.getD (some 1)).getD 1
    if n > p.parameters.length then p.giveUp "shift: can't shift that many"
    else { p.withStatus 0 with parameters := p.parameters.drop n }

/-- Sets options and parameters. -/
def set (p : Process) (arguments : List Text) : Process :=
  match p.options.read false arguments with
  | .error m => p.giveUp ("set: " ++ m)
  | .ok r =>
    { p.withStatus 0 with
      options := r.options
      parameters := if r.rest.isEmpty && !r.ended then p.parameters else r.rest }

/-- Carries out `printf`. -/
def printf (p : Process) (utility : Text) (arguments : List Text) : Process :=
  let r := Output.printf arguments
  let p := r.faults.foldl (fun p m => p.complainOf utility m r.status) p
  (p.say utility r.bytes).withStatus r.status

/-- The names of the utilities that the shell language has of its own. -/
def builtInNames : List String :=
  [".", ":", "[", "alias", "bg", "break", "cd", "command", "continue", "echo", "eval", "exec",
   "exit", "export", "false", "fg", "hash", "jobs", "kill", "local", "printf", "pwd",
   "read", "readonly", "return", "set", "shift", "test", "times", "trap", "true", "type", "ulimit",
   "umask", "unalias", "unset", "wait"]

/-- Carries out a utility of the shell language; `none` for a name that is none. -/
def builtIn? (p : Process) (name : Text) (arguments : List Text) : Option Process :=
  let is (s : String) : Bool := name = s.toList
  if is ":" || is "true" then p.withStatus 0
  else if is "false" then p.withStatus 1
  else if is "echo" then p.say name (Output.echo arguments)
  else if is "printf" then p.printf name arguments
  else if is "pwd" then p.say name (p.directory ++ [10])
  else if is "exit" then p.endWith name arguments .exited
  else if is "return" then p.endWith name arguments .returning
  else if is "break" then p.leave name arguments .leaving
  else if is "continue" then p.leave name arguments .again
  else if is "kill" then p.kill arguments
  else if is "test" then p.test name arguments
  else if is "[" then p.bracketTest arguments
  else if is "read" then p.readLine arguments
  else if is "shift" then p.shift arguments
  else if is "set" then p.set arguments
  else if is "export" || is "readonly" then p.mark name arguments
  else if is "local" then p.localVariables arguments
  else if is "unset" then p.unset arguments
  else if is "cd" then p.enter arguments
  else if is "wait" then (p.withStatus 0).wait (max p.heldOut p.heldErr - p.now)
  else if is "trap" then p.trap arguments
  else if is "umask" then p.say name (if arguments.isEmpty then Text.encode "0022\n" else [])
  else if ["alias", "bg", "fg", "hash", "jobs", "times", "ulimit", "unalias"].any is then
    p.withStatus 0
  else none

/-- A name as programs write it: between quotes where it has characters other than the usual. -/
def namedAs (t : Text) : Text :=
  let usual (c : Char) : Bool := c.isAlphanum || "%+,-./:=@_^".toList.contains c
  if !t.isEmpty && t.all fun c => usual c || c.toNat > 127 then t else inQuotes t

/-- The bytes of files, or those of the input. -/
def cat (p : Process) (called : Text) (files : List Text) : Process :=
  let files := files.filter fun f => f ≠ ['-', 'u'] && f ≠ ['-', '-']
  let files := if files.isEmpty then [['-']] else files
  files.foldl (fun p file =>
    if file = ['-'] then { p.writeTo p.out p.input with input := [] }
    else match p.tree.read (p.place file) with
    | .ok bytes => p.writeTo p.out bytes
    | .error e =>
      let what := match e with
        | .os n => n.sentence
        | e => e.message
      (p.warn (called ++ ": " ++ namedAs file ++ ": " ++ what)).withStatus 1) (p.withStatus 0)

/-- How to learn more about a program. -/
def hint (called : Text) : Text :=
  "Try '" ++ called ++ " --help' for more information."

/-- Passes the time that the arguments tell. -/
def sleep (p : Process) (called : Text) (arguments : List Text) : Process :=
  let isTime (t : Text) : Bool :=
    t.head?.any (fun c => c.isDigit || c = '.') &&
      (t.dropWhile fun c => c.isDigit || c = '.').length < 2
  let wrong := (arguments.filter (!isTime ·)).map fun t =>
    ": invalid time interval '".toList ++ t ++ ['\'']
  let wrong := if arguments.isEmpty then [": missing operand".toList] else wrong
  if wrong.isEmpty then (p.withStatus 0).wait (Text.total (arguments.map milliseconds))
  else ((wrong.foldl (fun p m => p.warn (called ++ m)) p).warn (hint called)).withStatus 1

/-- Carries out a utility that is a program of the system, under the name that it is called. -/
def utility (p : Process) (tool called : Text) (arguments : List Text) : Process :=
  let is (s : String) : Bool := tool = s.toList
  if is "sleep" then p.sleep called arguments
  else if is "cat" then p.cat called arguments
  else if is "echo" then (p.withStatus 0).writeTo p.out (Output.plainEcho arguments)
  else (p.builtIn? tool arguments).getD p

end Process

end LineShell.Script
