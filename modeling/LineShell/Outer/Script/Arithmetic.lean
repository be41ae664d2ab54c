import LineShell.Text.Blank
import LineShell.Text.Numeral

/-! Integer expressions in scripts. Numbers have 64 bits. An expression may give values to
variables; those are kept beside the value that it has itself. -/

namespace LineShell.Script.Arithmetic

inductive Token where
  | number (n : Int)
  | name (t : Text)
  | operator (t : Text)
  deriving DecidableEq, Repr

/-- The operators, longer ones first. -/
def operators : List String :=
  ["<<=", ">>=", "||", "&&", "==", "!=", "<=", ">=", "<<", ">>", "+=", "-=", "*=", "/=", "%=", "&=",
   "|=", "^=", "=", "<", ">", "+", "-", "*", "/", "%", "&", "|", "^", "~", "!", "(", ")", "?", ":"]

/-- The binary operators by how tightly they bind, the loosest first. -/
def levels : List (List String) :=
  [["|"], ["^"], ["&"], ["==", "!="], ["<=", ">=", "<", ">"], ["<<", ">>"], ["+", "-"],
   ["*", "/", "%"]]

def isNameStart (c : Char) : Bool :=
  c.isAlpha || c = '_'

def isNameChar (c : Char) : Bool :=
  c.isAlphanum || c = '_'

def half : Nat := 9223372036854775808

/-- A number brought into 64 bits. -/
def wrap (n : Int) : Int :=
  (n + half) % (2 * half) - half

/-- The value of a digit. -/
def digit? (base : Nat) (c : Char) : Option Nat :=
  let n := if c.isDigit then c.toNat - '0'.toNat
    else if c.isAlpha then c.toLower.toNat - 'a'.toNat + 10 else base
  if n < base then some n else none

/-- The number of digits at the front, and what follows them. The largest one stands for all that
are larger. -/
def numberAt (base : Nat) (t : Text) : Nat × Text :=
  let digits := t.takeWhile fun c => (digit? base c).isSome
  let n := digits.foldl (fun n c => n * base + (digit? base c).getD 0) 0
  (min n (half - 1), t.drop digits.length)

/-- A number as it is written in programs: a zero in front tells octal digits, `0x` hexadecimal
ones. -/
def literal (t : Text) : Nat × Text :=
  match t with
  | '0' :: 'x' :: rest => numberAt 16 rest
  | '0' :: 'X' :: rest => numberAt 16 rest
  | '0' :: _ => numberAt 8 t
  | _ => numberAt 10 t

/-- The tokens of an expression; `none` where a character begins none. Each step takes a
character. -/
def tokens : Nat → Text → Option (List Token)
  | 0, _ => some []
  | _, [] => some []
  | n + 1, c :: rest =>
    if Text.isBlank c then tokens n rest
    else if c.isDigit then
      let (value, after) := literal (c :: rest)
      (tokens n after).map (.number value :: ·)
    else if isNameStart c then
      (tokens n (rest.dropWhile isNameChar)).map (.name (c :: rest.takeWhile isNameChar) :: ·)
    else
      match (operators.map String.toList).find? (·.isPrefixOf (c :: rest)) with
      | some op => (tokens n ((c :: rest).drop op.length)).map (.operator op :: ·)
      | none => none

def ofBool (b : Bool) : Int :=
  if b then 1 else 0

/-- Two numbers of 64 bits combined bit by bit. -/
def bitwise (f : Nat → Nat → Nat) (a b : Int) : Int :=
  let bits (n : Int) : Nat := (n % (2 * half)).toNat
  wrap (f (bits a) (bits b))

def apply (op : Text) (a b : Int) : Except Text Int :=
  let is (s : String) : Bool := op = s.toList
  if (is "/" || is "%") && b = 0 then .error "division by zero"
  else .ok <|
    if is "==" then ofBool (a = b)
    else if is "!=" then ofBool (a ≠ b)
    else if is "<=" then ofBool (a ≤ b)
    else if is ">=" then ofBool (b ≤ a)
    else if is "<" then ofBool (a < b)
    else if is ">" then ofBool (b < a)
    else if is "&" then bitwise Nat.land a b
    else if is "|" then bitwise Nat.lor a b
    else if is "^" then bitwise Nat.xor a b
    else if is "<<" then bitwise (fun a b => Nat.shiftLeft a (b % 64)) a b
    else if is ">>" then wrap (a.shiftRight (b % 64).toNat)
    else if is "+" then wrap (a + b)
    else if is "-" then wrap (a - b)
    else if is "*" then wrap (a * b)
    else if is "/" then wrap (a.tdiv b)
    else wrap (a.tmod b)

/-- What is left of an expression, and the values that it has given to variables, latest first. -/
structure State where
  input : List Token
  given : List (Text × Int) := []

abbrev Step := StateT State (Except Text)

namespace Step

def fail {α : Type} (message : Text) : Step α :=
  fun _ => .error message

/-- Takes the next token if it is one of some operators. -/
def oneOf (ops : List String) : Step (Option Text) := fun s =>
  match s.input with
  | .operator op :: rest =>
    if (ops.map String.toList).contains op then .ok (some op, { s with input := rest })
    else .ok (none, s)
  | _ => .ok (none, s)

/-- The value of a variable. -/
def lookup (value : Text → Except Text Int) (name : Text) : Step Int := fun s =>
  match s.given.lookup name with
  | some n => .ok (n, s)
  | none => (value name).map (·, s)

def give (name : Text) (n : Int) : Step Unit :=
  modify fun s => { s with given := (name, n) :: s.given }

end Step

/-- The name and the operator of an assignment that comes next. -/
def assignmentAhead? : List Token → Option (Text × Text × List Token)
  | .name x :: .operator op :: rest =>
    let isAssignment :=
      op.getLast? = some '=' && !(["==", "!=", "<=", ">="].map String.toList).contains op
    if isAssignment then some (x, op, rest) else none
  | _ => none

mutual

/-- The value of an expression. Nothing is looked up, given or refused where `live` is false. -/
def assignment (value : Text → Except Text Int) (live : Bool) : Nat → Step Int
  | 0 => pure 0
  | n + 1 => do
    match assignmentAhead? (← get).input with
    | none => conditional value live n
    | some (x, op, rest) =>
      modify fun s => { s with input := rest }
      let b ← assignment value live n
      if !live then return b
      let result ← if op = ['='] then pure b else do
        let a ← Step.lookup value x
        match apply op.dropLast a b with
        | .ok r => pure r
        | .error m => Step.fail m
      Step.give x result
      return result

def conditional (value : Text → Except Text Int) (live : Bool) : Nat → Step Int
  | 0 => pure 0
  | n + 1 => do
    let test ← either value live n
    match ← Step.oneOf ["?"] with
    | none => return test
    | some _ =>
      let yes ← assignment value (live && test ≠ 0) n
      match ← Step.oneOf [":"] with
      | none => Step.fail "expecting ':'"
      | some _ =>
        let no ← conditional value (live && test = 0) n
        return if test ≠ 0 then yes else no

def either (value : Text → Except Text Int) (live : Bool) : Nat → Step Int
  | 0 => pure 0
  | n + 1 => do
    let a ← both value live n
    match ← Step.oneOf ["||"] with
    | none => return a
    | some _ =>
      let b ← either value (live && a = 0) n
      return ofBool (a ≠ 0 || b ≠ 0)

def both (value : Text → Except Text Int) (live : Bool) : Nat → Step Int
  | 0 => pure 0
  | n + 1 => do
    let a ← level value live n levels
    match ← Step.oneOf ["&&"] with
    | none => return a
    | some _ =>
      let b ← both value (live && a ≠ 0) n
      return ofBool (a ≠ 0 && b ≠ 0)

/-- The value of an expression of some level. -/
def level (value : Text → Except Text Int) (live : Bool) : Nat → List (List String) → Step Int
  | 0, _ => pure 0
  | n + 1, [] => operand value live n
  | n + 1, ops :: tighter => do
    let a ← level value live n tighter
    more value live n ops tighter a

/-- Further operands of one level. -/
def more (value : Text → Except Text Int) (live : Bool) :
    Nat → List String → List (List String) → Int → Step Int
  | 0, _, _, a => pure a
  | n + 1, ops, tighter, a => do
    match ← Step.oneOf ops with
    | none => return a
    | some op =>
      let b ← level value live n tighter
      if !live then more value live n ops tighter a
      else match apply op a b with
      | .ok r => more value live n ops tighter r
      | .error m => Step.fail m

/-- A number, a variable, a sign in front of one, or an expression in parentheses. -/
def operand (value : Text → Except Text Int) (live : Bool) : Nat → Step Int
  | 0 => pure 0
  | n + 1 => do
    match ← Step.oneOf ["-", "+", "!", "~", "("] with
    | some ['-'] => return wrap (-(← operand value live n))
    | some ['+'] => operand value live n
    | some ['!'] => return ofBool ((← operand value live n) = 0)
    | some ['~'] => return -(← operand value live n) - 1
    | some _ =>
      let a ← assignment value live n
      match ← Step.oneOf [")"] with
      | some _ => return a
      | none => Step.fail "expecting ')'"
    | none =>
      match (← get).input with
      | .number a :: rest =>
        modify fun s => { s with input := rest }
        return a
      | .name x :: rest =>
        modify fun s => { s with input := rest }
        if live then Step.lookup value x else return 0
      | _ => Step.fail "expecting primary"

end

/-- The value of an expression, where `value` tells those of variables, and the values that it gives
to variables, latest first. -/
def evaluate (value : Text → Except Text Int) (t : Text) :
    Except Text (Int × List (Text × Int)) :=
  let blamed (m : Text) : Text := "arithmetic expression: " ++ m ++ ": \"" ++ t ++ "\""
  match tokens (t.length + 1) t with
  | none => .error (blamed "expecting EOF")
  | some input =>
    match (assignment value true (16 * t.length + 32)).run { input } with
    | .error m => .error (if "Illegal".toList.isPrefixOf m then m else blamed m)
    | .ok (n, s) => if s.input.isEmpty then .ok (n, s.given) else .error (blamed "expecting EOF")

end LineShell.Script.Arithmetic
