import LineShell.Count
import LineShell.Text.Style
import LineShell.Text.Width

/-! Names in columns. All columns are as wide as the widest name and a gap, there are as many as
fit on the terminal, and names go row by row. -/

namespace LineShell.Listing

open Text

/-- A name to show, and whether it is that of a directory. -/
structure Label where
  text : Text
  isDir : Bool
  deriving DecidableEq, Repr

namespace Label

/-- Directories are shown in a colour of their own. -/
def shown (on : Bool) (l : Label) : Text :=
  if l.isDir then Style.boldBlue.paint on l.text else l.text

end Label

/-- The columns between the widest name and the next column. -/
def gap : Nat := 2

/-- The width of the widest name. -/
def widest (labels : List Label) : Nat :=
  (labels.map fun l => width l.text).foldl max 0

/-- The number of columns that fit; there is always one. -/
def columnCount (terminal column : Nat) : Except Crash Nat :=
  (Count.share terminal column).map (max · 1)

/-- A list in parts of `n` elements; the last part may be shorter. -/
def chunks {α : Type} (n : Nat) : List α → List (List α)
  | [] => []
  | x :: rest => (x :: rest.take (n - 1)) :: chunks n (rest.drop (n - 1))
termination_by items => items.length
decreasing_by simp only [List.length_drop, List.length_cons]; omega

/-- A row: each name but the last is filled up to the width of a column. -/
def row (on : Bool) (column : Nat) : List Label → Except Crash Text
  | [] => .ok []
  | [l] => .ok (l.shown on)
  | l :: rest => do
    let free ← Count.less column (width l.text)
    let others ← row on column rest
    return l.shown on ++ blanks free ++ others

/-- The text without the line feeds at its end. -/
def dropLineFeeds (t : Text) : Text :=
  (t.reverse.dropWhile (· = '\n')).reverse

/-- The names in columns on a terminal. -/
def inColumns (on : Bool) (terminal : Nat) (labels : List Label) : Except Crash Text := do
  let column := widest labels + gap
  let count ← columnCount terminal column
  let rows ← (chunks count labels).mapM (row on column)
  return dropLineFeeds (stacked rows)

end LineShell.Listing
