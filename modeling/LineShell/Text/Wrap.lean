import LineShell.Text.Blank
import LineShell.Text.Width

/-! A text set in lines of limited width, each filled with as many words as fit. -/

namespace LineShell.Text

/-- The narrowest limit; a smaller one counts as this. -/
def narrowest : Nat := 10

/-- The lines that words make behind a line that is begun; no line is begun where it is empty. -/
def filled (limit : Nat) (line : Text) : List Text → List Text
  | [] => if line.isEmpty then [] else [line]
  | word :: rest =>
    if line.isEmpty then filled limit word rest
    else if width line + 1 + width word > limit then line :: filled limit word rest
    else filled limit (line ++ ' ' :: word) rest

/-- The lines of a text at a limit. A word wider than the limit has a line of its own. -/
def wrap (t : Text) (limit : Nat) : List Text :=
  filled (max limit narrowest) [] (words t)

end LineShell.Text
