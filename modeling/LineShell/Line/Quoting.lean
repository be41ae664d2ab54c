import LineShell.Line.Token

/-! Ways to write tokens so that a line gives them back. A word may be escaped character by
character or put between quotes of either kind; an operator is written as it is. -/

namespace LineShell.Line

/-- A way to write a word. -/
inductive Spelling where
  | escaped
  | doubleQuoted
  | singleQuoted
  deriving DecidableEq, Repr

/-- A text with a backslash before the quote sign and before each backslash. -/
def guarded (quote : Char) (t : Text) : Text :=
  t.flatMap fun c => if c = quote ∨ c = '\\' then ['\\', c] else [c]

/-- The word in one spelling. -/
def Spelling.write : Spelling → Text → Text
  | .escaped, t => t.flatMap fun c => ['\\', c]
  | .doubleQuoted, t => '"' :: guarded '"' t ++ ['"']
  | .singleQuoted, t => '\'' :: guarded '\'' t ++ ['\'']

/-- A token to be written: a word with its spelling, or an operator. -/
inductive Written where
  | word (spelling : Spelling) (text : Text)
  | operator (op : Operator)
  deriving DecidableEq, Repr

def Written.token : Written → Token
  | .word _ t => .word t
  | .operator op => .operator op

def Written.text : Written → Text
  | .word s t => s.write t
  | .operator op => op.text

/-- The line that shows the tokens with a run of blanks after each one. -/
def write : List (Written × Text) → Text
  | [] => []
  | [(w, _)] => w.text
  | (w, gap) :: rest => w.text ++ gap ++ write rest

end LineShell.Line
