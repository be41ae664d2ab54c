import LineShell.Text.Blank

/-! The lines of a session as it remembers them: the latest ones, without blank lines and without
repeats of a line right after itself. -/

namespace LineShell

/-- Remembered lines, oldest first, and the largest number of them. -/
structure History where
  capacity : Nat
  entries : List Text
  deriving DecidableEq, Repr

namespace History

/-- The number of lines that a session remembers. -/
def usualCapacity : Nat := 1000

/-- A history that remembers nothing yet; it always has room for a line. -/
def withCapacity (n : Nat) : History :=
  { capacity := max n 1, entries := [] }

def empty : History :=
  withCapacity usualCapacity

/-- The history after a line, which is taken without the blanks around it. -/
def add (h : History) (line : Text) : History :=
  let line := Text.trim line
  if line.isEmpty || h.entries.getLast? = some line then h
  else { h with entries := Text.latest h.capacity (h.entries ++ [line]) }

def size (h : History) : Nat :=
  h.entries.length

/-- The entries with their positions, counted from one. -/
def numbered (h : History) : List Text :=
  h.entries.zipIdx.map fun (line, i) => Text.decimal (i + 1) ++ ". " ++ line

/-- The last `limit` entries, or all of them, one below another. -/
def render (h : History) (limit : Option Nat) : Text :=
  if h.entries.isEmpty then "History is empty"
  else Text.stacked (Text.latest (limit.getD h.size) h.numbered)

end History

end LineShell
