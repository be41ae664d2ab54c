import LineShell.Text.Style
import LineShell.Text.Width

/-! Framed text. A frame is drawn around rows of spans; each span may have a style, which takes no
columns, so a frame has the same layout with and without colours. -/

namespace LineShell.Text

/-- A text with a style, or without one. -/
structure Span where
  style : Option Style
  text : Text
  deriving DecidableEq, Repr

namespace Span

def plain (t : Text) : Span := ⟨none, t⟩

def styled (s : Style) (t : Text) : Span := ⟨some s, t⟩

/-- The span as it is shown with colours on or off. -/
def shown (on : Bool) (s : Span) : Text :=
  match s.style with
  | some style => style.paint on s.text
  | none => s.text

end Span

/-- What stands between two frame lines at the sides. -/
abbrev Row := List Span

namespace Row

def plain (r : Row) : Text :=
  r.flatMap Span.text

def shown (on : Bool) (r : Row) : Text :=
  r.flatMap (Span.shown on)

end Row

/-- A line inside a frame: a row, or a rule from side to side. -/
inductive Framed where
  | row (r : Row)
  | rule
  deriving DecidableEq, Repr

namespace Framed

/-- A row of plain text. -/
def text (t : Text) : Framed :=
  .row [.plain t]

/-- A title in the middle of `inner` columns. -/
def centered (inner : Nat) (t : Text) : Framed :=
  let left := (inner - width t) / 2
  .row [.plain (blanks (left - 1)), .styled .boldBrightCyan t]

def frameStyle : Style := .cyan

/-- A horizontal line of a frame, between its two corners. -/
def bar (on : Bool) (left stroke right : Char) (inner : Nat) : Text :=
  frameStyle.paint on (left :: List.replicate inner stroke ++ [right])

/-- A line of a frame with `inner` columns between its sides. A row too wide for it sticks out. -/
def line (on : Bool) (inner : Nat) : Framed → Text
  | .rule => bar on '╟' '─' '╢' inner
  | .row r =>
    let side := frameStyle.paint on ['║']
    side ++ ' ' :: r.shown on ++ blanks (inner - (width r.plain + 1)) ++ side

end Framed

/-- The columns between the sides of a frame. -/
def inside (width : Nat) : Nat :=
  width - 2

/-- The lines of a frame of some width around its content. -/
def frame (on : Bool) (width : Nat) (content : List Framed) : List Text :=
  let inner := inside width
  Framed.bar on '╔' '═' '╗' inner :: content.map (Framed.line on inner) ++
    [Framed.bar on '╚' '═' '╝' inner]

end LineShell.Text
