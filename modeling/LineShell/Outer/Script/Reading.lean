import LineShell.Outer.Script.Lexeme

/-! Scripts read into statements, a line at a time: what stands in front of a fault is carried out
before the fault is met. -/

namespace LineShell.Script

namespace Reading

/-- Lexemes with the lines that are reached behind them. -/
abbrev Input := List (Nat × Lexeme)

def reserved : List String :=
  ["!", "case", "do", "done", "elif", "else", "esac", "fi", "for", "if", "in", "then", "until",
   "while", "\x7b", "\x7d"]

/-- The reserved words that end a list of statements. -/
def endings : List String :=
  ["then", "else", "elif", "fi", "do", "done", "esac", "\x7d"]

/-- The reserved word that a lexeme is. -/
def keyword? : Lexeme → Option Text
  | .word w => w.plain?.filter (reserved.map String.toList).contains
  | _ => none

/-- The reserved word that comes next. -/
def ahead? (input : Input) : Option Text :=
  input.head?.bind fun (_, l) => keyword? l

/-- A lexeme as faults name it. -/
def named (l : Lexeme) : Text :=
  match l with
  | .word _ => ((keyword? l).map fun t => '"' :: t ++ ['"']).getD "word"
  | .operator ['\n'] => "newline"
  | .operator op => '"' :: op ++ ['"']
  | .redirect _ _ => "redirection"
  | .wrong m => m
  | .finish => "end of file"

/-- The fault of what comes next, where something else has to stand. -/
def unexpected (input : Input) (expected : Option Text) : Fault :=
  let (line, l) := input.head?.getD (1, .finish)
  match l, expected with
  | .wrong m, _ => { line, message := m }
  | l, none => { line, message := named l ++ " unexpected" }
  | l, some t => { line, message := named l ++ " unexpected (expecting \"" ++ t ++ "\")" }

/-- A fault at what comes next. -/
def faultAt (input : Input) (message : Text) : Fault :=
  match input.head? with
  | some (line, .wrong m) => { line, message := m }
  | some (line, _) => { line, message }
  | none => { line := 1, message }

/-- Whether a list of statements ends here. -/
def atEnd (input : Input) : Bool :=
  match input.head? with
  | none | some (_, .finish) => true
  | some (_, .operator op) => op = [')'] || op = [';', ';']
  | some (_, l) => (keyword? l).any (endings.map String.toList).contains

def atFinish (input : Input) : Bool :=
  match input.head? with
  | none | some (_, .finish) => true
  | _ => false

def dropBreaks : Input → Input
  | (_, .operator ['\n']) :: rest => dropBreaks rest
  | rest => rest

/-- What follows a reserved word that has to stand here. -/
def expect (t : Text) (input : Input) : Except Fault Input :=
  if ahead? input = some t then .ok (input.drop 1) else .error (unexpected input (some t))

/-- What follows an operator that has to stand here. -/
def expectOperator (op : Text) (input : Input) : Except Fault Input :=
  match input with
  | (_, .operator o) :: rest =>
    if o = op then .ok rest else .error (unexpected input (some op))
  | _ => .error (unexpected input (some op))

/-- The assignment that a word is. -/
def assignment? (w : Word) : Option (Text × Word) :=
  let letters := w.takeWhile fun p => p matches .literal false _
  let letters := letters.flatMap fun (p : Part) =>
    match p with
    | .literal _ t => t
    | _ => []
  let name := letters.takeWhile (· ≠ '=')
  if name.length < letters.length && Lexeme.isName name then some (name, w.drop (name.length + 1))
  else none

/-- The redirection of an operator and the word behind it. -/
def redirectOf (d : Option Nat) (op : Text) (w : Word) : Redirect :=
  if op = ['<'] then .read w
  else if op = ['<', '<'] then .document w
  else if op = ['>', '&'] then .duplicate (d.getD 1) w
  else if op = ['<', '&'] then .duplicate (d.getD 0) w
  else .write (d.getD 1) (op = ['>', '>']) w

/-- The redirections behind a command. -/
def redirects : Input → Except Fault (List Redirect × Input)
  | (_, .redirect d op) :: (_, .word w) :: rest => do
    let (rs, rest) ← redirects rest
    return (redirectOf d op w :: rs, rest)
  | (_, .redirect _ _) :: rest => .error (unexpected rest none)
  | input => .ok ([], input)

/-- The words and redirections of a command without a reserved word. -/
def simple : Input → Except Fault (List Word × List Redirect × Input)
  | (_, .redirect d op) :: (_, .word w) :: rest => do
    let (ws, rs, rest) ← simple rest
    return (ws, redirectOf d op w :: rs, rest)
  | (_, .redirect _ _) :: rest => .error (unexpected rest none)
  | (_, .word w) :: rest => do
    let (ws, rs, rest) ← simple rest
    return (w :: ws, rs, rest)
  | input => .ok ([], [], input)

/-- The assignments in front of the other words. -/
def splitAssignments : List Word → List (Text × Word) × List Word
  | w :: rest =>
    match assignment? w with
    | some a => let (as, ws) := splitAssignments rest; (a :: as, ws)
    | none => ([], w :: rest)
  | [] => ([], [])

/-- The words that stand one after another here. -/
def wordsHere : Input → List Word × Input
  | (_, .word w) :: rest => let (ws, rest) := wordsHere rest; (w :: ws, rest)
  | rest => ([], rest)

/-- The patterns of an arm up to the parenthesis that closes them. -/
def patterns : Input → Except Fault (List Word × Input)
  | (_, .word w) :: (_, .operator ['|']) :: rest => do
    let (ws, rest) ← patterns rest
    return (w :: ws, rest)
  | (_, .word w) :: rest => do return ([w], ← expectOperator [')'] rest)
  | input => .error (unexpected (if atFinish input then input else input.drop 1) (some [')']))

/-- The utilities that no function can take the name of. -/
def specialNames : List String :=
  [".", ":", "break", "continue", "eval", "exec", "exit", "export", "readonly", "return", "set",
   "shift", "times", "trap", "unset"]

/-- The name of the function that is defined here, and what follows its parentheses. -/
def function? : Input → Except Fault (Option (Text × Input))
  | (_, .word w) :: (_, .operator ['(']) :: rest => do
    if (assignment? w).isSome then return none
    let rest ← expectOperator [')'] rest
    let name := w.bare
    if !Lexeme.isName name || (specialNames.map String.toList).contains name then
      .error (faultAt rest "Bad function name")
    return some (name, rest)
  | _ => .ok none

/-- The line of what comes next. -/
def lineHere (input : Input) : Nat :=
  (input.head?.map (·.1)).getD 1

mutual

/-- Statements up to where a list of them ends. There has to be one if `must` says so. -/
def list : Nat → Bool → Input → Except Fault (Statement × Input)
  | 0, _, input => .ok (.nothing, input)
  | n + 1, must, input =>
    let input := dropBreaks input
    if atFinish input || !must && atEnd input then .ok (.nothing, input)
    else do
      let (s, rest) ← andOr n input
      match rest with
      | (_, .operator ['&']) :: rest =>
        let (more, rest) ← list n false rest
        return (.sequence (.background s) more, rest)
      | (_, .operator [';']) :: rest | (_, .operator ['\n']) :: rest =>
        let (more, rest) ← list n false rest
        return (.sequence s more, rest)
      | _ => return (s, rest)

/-- Pipelines with `&&` and `||` between them. -/
def andOr : Nat → Input → Except Fault (Statement × Input)
  | 0, input => .ok (.nothing, input)
  | n + 1, input => do
    let (s, rest) ← pipeline n input
    andOrAfter n s rest

def andOrAfter : Nat → Statement → Input → Except Fault (Statement × Input)
  | 0, s, input => .ok (s, input)
  | n + 1, s, input =>
    match input with
    | (_, .operator ['&', '&']) :: rest => do
      let (next, rest) ← pipeline n (dropBreaks rest)
      andOrAfter n (.whenDone s next) rest
    | (_, .operator ['|', '|']) :: rest => do
      let (next, rest) ← pipeline n (dropBreaks rest)
      andOrAfter n (.unlessDone s next) rest
    | _ => .ok (s, input)

/-- Commands with `|` between them, all of which `!` in front negates. -/
def pipeline : Nat → Input → Except Fault (Statement × Input)
  | 0, input => .ok (.nothing, input)
  | n + 1, input =>
    if ahead? input = some ['!'] then do
      let (s, rest) ← piped n (input.drop 1)
      return (.negated s, rest)
    else piped n input

def piped : Nat → Input → Except Fault (Statement × Input)
  | 0, input => .ok (.nothing, input)
  | n + 1, input => do
    let (s, rest) ← command n input
    match rest with
    | (_, .operator ['|']) :: rest =>
      let (next, rest) ← piped n (dropBreaks rest)
      return (.piped s next, rest)
    | _ => return (s, rest)

/-- One command: a compound one by its reserved word, or a simple one. -/
def command : Nat → Input → Except Fault (Statement × Input)
  | 0, input => .ok (.nothing, input)
  | n + 1, input =>
    let behind (s : Statement) (rest : Input) : Except Fault (Statement × Input) := do
      let (rs, rest) ← redirects rest
      return (if rs.isEmpty then s else .redirected (lineHere input) s rs, rest)
    match input, ahead? input with
    | (_, .operator ['(']) :: rest, _ => do
      let (s, rest) ← list n true rest
      behind (.apart s) (← expectOperator [')'] rest)
    | _ :: rest, some word =>
      let is (s : String) : Bool := word = s.toList
      if is "\x7b" then do
        let (s, rest) ← list n true rest
        behind s (← expect "\x7d" rest)
      else if is "if" then do
        let (s, rest) ← branches n rest
        behind s (← expect "fi" rest)
      else if is "while" || is "until" then do
        let (test, rest) ← list n true rest
        let rest ← expect "do" rest
        let (body, rest) ← list n true rest
        behind (.repeated (is "while") test body) (← expect "done" rest)
      else if is "for" then do
        let (s, rest) ← loop n rest
        behind s (← expect "done" rest)
      else if is "case" then
        match rest with
        | (_, .word subject) :: rest => do
          let (s, rest) ← arms n (← expect "in" (dropBreaks rest))
          behind (.choice subject s) rest
        | _ => .error (unexpected rest none)
      else .error (unexpected input none)
    | (line, .word _) :: _, none => do
      match ← function? input with
      | some (name, rest) =>
        let (body, rest) ← command n (dropBreaks rest)
        return (.function name body, rest)
      | none =>
        let (words, rs, rest) ← simple input
        let (assignments, words) := splitAssignments words
        return (.simple line assignments words rs, rest)
    | (line, .redirect _ _) :: _, _ => do
      let (words, rs, rest) ← simple input
      let (assignments, words) := splitAssignments words
      return (.simple line assignments words rs, rest)
    | _, _ => .error (unexpected input none)

/-- A loop over values, behind its reserved word and up to the end of its body. -/
def loop : Nat → Input → Except Fault (Statement × Input)
  | 0, input => .ok (.nothing, input)
  | n + 1, input =>
    let name := match input with
      | (_, .word w) :: _ => w.plain?.filter Lexeme.isName
      | _ => none
    match name with
    | none => .error (faultAt input "Bad for loop variable")
    | some name => do
      let rest := dropBreaks (input.drop 1)
      let (items, rest) ←
        if ahead? rest = some ['i', 'n'] then
          let (ws, rest) := wordsHere (rest.drop 1)
          match rest with
          | (_, .operator [';']) :: rest | (_, .operator ['\n']) :: rest =>
            Except.ok (some ws, rest)
          | _ => Except.error (unexpected rest none)
        else match rest with
          | (_, .operator [';']) :: rest => Except.ok (none, rest)
          | _ => Except.ok (none, rest)
      let rest ← expect "do" (dropBreaks rest)
      let (body, rest) ← list n true rest
      return (.each name items body, rest)

/-- The test and the branches behind `if` or `elif`. -/
def branches : Nat → Input → Except Fault (Statement × Input)
  | 0, input => .ok (.nothing, input)
  | n + 1, input => do
    let (test, rest) ← list n true input
    let rest ← expect "then" rest
    let (yes, rest) ← list n true rest
    if ahead? rest = some "elif".toList then
      let (no, rest) ← branches n (rest.drop 1)
      return (.conditional test yes no, rest)
    else if ahead? rest = some "else".toList then
      let (no, rest) ← list n true (rest.drop 1)
      return (.conditional test yes no, rest)
    else return (.conditional test yes .nothing, rest)

/-- The arms of a choice, with the word that ends it. -/
def arms : Nat → Input → Except Fault (Statement × Input)
  | 0, input => .ok (.nothing, input)
  | n + 1, input =>
    let input := dropBreaks input
    if ahead? input = some "esac".toList then .ok (.nothing, input.drop 1)
    else do
      let opened := match input with
        | (_, .operator ['(']) :: rest => rest
        | _ => input
      let (ps, rest) ← patterns opened
      let (body, rest) ← list n false rest
      let rest := dropBreaks rest
      if ahead? rest = some "esac".toList then
        return (.arm ps body .nothing, rest.drop 1)
      else
        let rest ← expectOperator [';', ';'] rest
        let (others, rest) ← arms n rest
        return (.arm ps body others, rest)

end

/-- The number of steps that are enough to read an input. -/
def enough (input : Input) : Nat :=
  8 * input.length + 8

/-- The statements up to the end of a line, and what follows it. A line may be empty. -/
def line : Nat → Input → Except Fault (Statement × Input)
  | 0, input => .ok (.nothing, input)
  | n + 1, input =>
    match input with
    | (_, .operator ['\n']) :: rest => .ok (.nothing, rest)
    | _ =>
      if atFinish input then .ok (.nothing, input)
      else do
        let (s, rest) ← andOr (enough input) input
        match rest with
        | (_, .operator ['&']) :: rest =>
          let (more, rest) ← line n rest
          return (.sequence (.background s) more, rest)
        | (_, .operator [';']) :: rest =>
          let (more, rest) ← line n rest
          return (.sequence s more, rest)
        | (_, .operator ['\n']) :: rest => return (s, rest)
        | _ => if atFinish rest then return (s, rest) else .error (unexpected rest none)

end Reading

end LineShell.Script
