import LineShell.Outer.Script.Lexeme

/-! Parameters as words hold them: a name, and what is to be made of its value. -/

namespace LineShell.Script

/-- An operator behind the name of a parameter, and the word that belongs to it. -/
inductive Modifier where
  | plain
  | default (evenEmpty : Bool) (w : Text)
  | alternative (evenEmpty : Bool) (w : Text)
  | assigned (evenEmpty : Bool) (w : Text)
  | required (evenEmpty : Bool) (w : Text)
  | start (longest : Bool) (pattern : Text)
  | finish (longest : Bool) (pattern : Text)
  deriving DecidableEq, Repr

/-- The modifier that a text behind the name of a parameter is. -/
def Modifier.ofText (t : Text) : Modifier :=
  let (evenEmpty, t) := match t with
    | ':' :: rest => (true, rest)
    | _ => (false, t)
  match t with
  | '-' :: w => .default evenEmpty w
  | '+' :: w => .alternative evenEmpty w
  | '=' :: w => .assigned evenEmpty w
  | '?' :: w => .required evenEmpty w
  | '#' :: '#' :: w => .start true w
  | '#' :: w => .start false w
  | '%' :: '%' :: w => .finish true w
  | '%' :: w => .finish false w
  | _ => .plain

/-- The name of a parameter and what stands behind it. -/
def parameterName (t : Text) : Text × Text :=
  match t with
  | c :: rest =>
    if "?$#@*!-".toList.contains c then ([c], rest)
    else if c.isDigit then (t.takeWhile Char.isDigit, t.dropWhile Char.isDigit)
    else (t.takeWhile Lexeme.isNameRest, t.dropWhile Lexeme.isNameRest)
  | [] => ([], [])

/-- A text that stands in the braces of a parameter, as a word. -/
def bracedWord (quoted : Bool) : Nat → Text → Word
  | 0, _ => []
  | n + 1, t =>
    match Lexeme.scan (t.length + 2) (if quoted then .document else .nothing) t with
    | .ok (w, []) => w
    | .ok (w, c :: rest) => w ++ .literal false [c] :: bracedWord quoted n rest
    | .error _ => []

/-- A word with a tilde in front made the home directory. -/
def homeFor (home : Option Text) (w : Word) : Word :=
  match home, w with
  | some h, [.literal false ['~']] => [.literal true h]
  | some h, .literal false ['~'] :: .literal false ['/'] :: rest =>
    .literal true h :: .literal false ['/'] :: rest
  | _, _ => w

end LineShell.Script
