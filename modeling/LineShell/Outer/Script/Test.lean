import LineShell.Text.Blank
import LineShell.Text.Numeral

/-! Tests, as `test` and `[` carry them out: words read as an expression. What a test of a file or
of a terminal says is for the script to tell. -/

namespace LineShell.Script.Test

/-- The kinds of operators. -/
inductive Kind where
  | unary
  | binary
  | other
  deriving DecidableEq, Repr

def unaryOperators : List String :=
  ["-r", "-w", "-x", "-e", "-f", "-d", "-c", "-b", "-p", "-u", "-g", "-k", "-s", "-t", "-z", "-n",
   "-h", "-O", "-G", "-L", "-S"]

def binaryOperators : List String :=
  ["=", "!=", "<", ">", "-eq", "-ne", "-ge", "-gt", "-le", "-lt", "-nt", "-ot", "-ef"]

def otherOperators : List String :=
  ["!", "-a", "-o", "(", ")"]

/-- The kind of the operator that a word is. -/
def kind? (t : Text) : Option Kind :=
  let isOne (l : List String) : Bool := (l.map String.toList).contains t
  if isOne unaryOperators then some .unary
  else if isOne binaryOperators then some .binary
  else if isOne otherOperators then some .other
  else none

/-- The kind of the operator at the front of words. An operator before a word that makes it an
operand is none. -/
def operator? : List Text → Option Kind
  | [] => none
  | t :: rest =>
    match kind? t with
    | some .unary =>
      match rest with
      | [] => none
      | [_] => some .unary
      | u :: _ => if kind? u = some .binary then none else some .unary
    | some k => if t = ['('] && rest.isEmpty then none else some k
    | none => none

/-- A number as an operand. -/
def number (t : Text) : Except Text Int :=
  match Text.integer? (Text.trim t) with
  | some n => .ok n
  | none => .error ("Illegal number: " ++ t)

/-- Whether a comparison holds. -/
def compare (op a b : Text) : Except Text Bool := do
  let is (s : String) : Bool := op = s.toList
  if is "=" then return a = b
  else if is "!=" then return a ≠ b
  else if is "<" then return !Text.le b a
  else if is ">" then return !Text.le a b
  else if is "-nt" || is "-ot" || is "-ef" then return false
  else
    let x ← number a
    let y ← number b
    return if is "-eq" then x = y
      else if is "-ne" then x ≠ y
      else if is "-lt" then x < y
      else if is "-le" then x ≤ y
      else if is "-gt" then x > y
      else x ≥ y

mutual

/-- An expression: whether it holds, and the words from its last one on. -/
def anyOf (holds : Text → Text → Except Text Bool) :
    Nat → List Text → Except Text (Bool × List Text)
  | 0, ws => .ok (false, ws)
  | n + 1, ws => do
    let (a, ws) ← allOf holds n ws
    match ws.drop 1 with
    | ['-', 'o'] :: rest =>
      let (b, ws) ← anyOf holds n rest
      return (a || b, ws)
    | _ => return (a, ws)

def allOf (holds : Text → Text → Except Text Bool) :
    Nat → List Text → Except Text (Bool × List Text)
  | 0, ws => .ok (false, ws)
  | n + 1, ws => do
    let (a, ws) ← negation holds n ws
    match ws.drop 1 with
    | ['-', 'a'] :: rest =>
      let (b, ws) ← allOf holds n rest
      return (a && b, ws)
    | _ => return (a, ws)

def negation (holds : Text → Text → Except Text Bool) :
    Nat → List Text → Except Text (Bool × List Text)
  | 0, ws => .ok (false, ws)
  | n + 1, ws =>
    match ws with
    | ['!'] :: rest =>
      if rest.isEmpty then .ok (true, ws)
      else do
        let (a, ws) ← negation holds n rest
        return (!a, ws)
    | _ => primary holds n ws

def primary (holds : Text → Text → Except Text Bool) :
    Nat → List Text → Except Text (Bool × List Text)
  | 0, ws => .ok (false, ws)
  | n + 1, ws =>
    match ws with
    | [] => .ok (false, ws)
    | t :: rest =>
      if t = ['('] && operator? ws = some .other then
        if rest.head? = some [')'] then .ok (false, rest)
        else do
          let (a, ws) ← anyOf holds n rest
          if (ws.drop 1).head? = some [')'] then return (a, ws.drop 1)
          else .error "closing paren expected"
      else if operator? ws = some .unary then
        match rest with
        | [] => .error (t ++ ": argument expected")
        | u :: _ => do return (← holds t u, rest)
      else
        match rest with
        | op :: more =>
          if operator? rest = some .binary then
            match more with
            | [] => .error (op ++ ": argument expected")
            | u :: _ => do return (← compare op t u, more)
          else .ok (!t.isEmpty, ws)
        | [] => .ok (!t.isEmpty, ws)

end

/-- An expression that has to be all of the words but for one more at most. -/
def whole (holds : Text → Text → Except Text Bool) (ws : List Text) : Except Text Bool := do
  let (a, left) ← anyOf holds (4 * ws.length + 8) ws
  match left with
  | t :: _ :: _ => .error ((if t.isEmpty then t else t ++ ": ") ++ "unexpected operator")
  | _ => return a

/-- Whether words hold as a test. With few words it is their number that tells what they are. -/
def run (holds : Text → Text → Except Text Bool) : List Text → Except Text Bool
  | [] => .ok false
  | [a, op, b] =>
    if kind? op = some .binary then compare op a b
    else if a = ['('] && b = [')'] then whole holds [op]
    else if a = ['!'] then (run holds [op, b]).map (!·)
    else whole holds [a, op, b]
  | [a, b, c, d] =>
    if a = ['('] && d = [')'] then whole holds [b, c]
    else if a = ['!'] then (run holds [b, c, d]).map (!·)
    else whole holds [a, b, c, d]
  | ws => whole holds ws

end LineShell.Script.Test
