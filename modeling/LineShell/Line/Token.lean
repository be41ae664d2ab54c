import LineShell.Line.Operator
import LineShell.Text.Blank

/-! A line cut into words and operators. The cut has two steps: each character is told what it
is, which drops quotes and escapes, and then neighbouring letters are put together. No line is
refused: an open quote lasts to the end of the line. -/

namespace LineShell

inductive Token where
  | word (text : Text)
  | operator (op : Operator)
  deriving DecidableEq, Repr

/-- How a token is shown without any quoting. -/
def Token.text : Token → Text
  | .word t => t
  | .operator o => o.text

namespace Line

/-- Whether a character stands outside quotes or inside those of one kind. -/
inductive Mode where
  | bare
  | single
  | double
  deriving DecidableEq, Repr

/-- The parts of a line that count: letters of words, operators, and gaps between words. -/
inductive Lexeme where
  | letter (c : Char)
  | operator (op : Operator)
  | gap
  deriving DecidableEq, Repr

/-- What a character outside an escape is, by the mode it is in and the character after it: the
mode that follows, the lexeme it begins, and whether that lexeme takes the next character too. -/
def classify (mode : Mode) (c : Char) (next : Option Char) : Mode × Option Lexeme × Bool :=
  match mode with
  | .bare =>
    match next.bind (Operator.ofPair? c) with
    | some op => (.bare, some (.operator op), true)
    | none =>
      match Operator.ofChar? c with
      | some op => (.bare, some (.operator op), false)
      | none =>
        if c = '\'' then (.single, none, false)
        else if c = '"' then (.double, none, false)
        else if Text.isBlank c then (.bare, some .gap, false)
        else (.bare, some (.letter c), false)
  | .single => if c = '\'' then (.bare, none, false) else (.single, some (.letter c), false)
  | .double => if c = '"' then (.bare, none, false) else (.double, some (.letter c), false)

/-- The lexemes of a line that is read in `mode`. A backslash makes the next character a letter
in every mode; at the end of the line it is nothing. -/
def lexemes (mode : Mode) : Text → List Lexeme
  | [] => []
  | ['\\'] => []
  | '\\' :: c :: rest => .letter c :: lexemes mode rest
  | [c] => (classify mode c none).2.1.toList
  | c :: d :: rest =>
    let (mode', lexeme, both) := classify mode c (some d)
    lexeme.toList ++ if both then lexemes mode' rest else lexemes mode' (d :: rest)

/-- The mode that a line leaves behind, and whether it ends inside an escape. -/
def modeAfter (mode : Mode) : Text → Mode × Bool
  | [] => (mode, false)
  | ['\\'] => (mode, true)
  | '\\' :: _ :: rest => modeAfter mode rest
  | [c] => ((classify mode c none).1, false)
  | c :: d :: rest =>
    let (mode', _, both) := classify mode c (some d)
    if both then modeAfter mode' rest else modeAfter mode' (d :: rest)

/-- A word in front of tokens; no letters are no word. -/
def close (letters : Text) (tokens : List Token) : List Token :=
  if letters.isEmpty then tokens else .word letters :: tokens

/-- The letters at the front of the lexemes, and the tokens after them. -/
def grouped : List Lexeme → Text × List Token
  | [] => ([], [])
  | .letter c :: rest => let (letters, tokens) := grouped rest; (c :: letters, tokens)
  | .gap :: rest => let (letters, tokens) := grouped rest; ([], close letters tokens)
  | .operator op :: rest =>
    let (letters, tokens) := grouped rest
    ([], .operator op :: close letters tokens)

/-- The tokens of lexemes. -/
def group (parts : List Lexeme) : List Token :=
  close (grouped parts).1 (grouped parts).2

/-- The words and operators of a line. -/
def tokenize (line : Text) : List Token :=
  group (lexemes .bare line)

end Line

end LineShell
