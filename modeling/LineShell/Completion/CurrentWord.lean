import LineShell.Text.Blank

/-! The word that a line ends in. Words end at blanks outside quotes; quotes are kept, and a
backslash is nothing special. -/

namespace LineShell.Completion

/-- A line in front of its last word, the word, and whether it is the first one of the line. Where
the line ends between words the word is empty. -/
structure CurrentWord where
  before : Text
  word : Text
  isFirst : Bool
  deriving DecidableEq, Repr

/-- A reader of a line: which quotes are open, the text up to the current word and the word itself,
both backwards, and how many words were completed. -/
structure Reader where
  single : Bool := false
  double : Bool := false
  before : Text := []
  word : Text := []
  completed : Nat := 0
  deriving DecidableEq, Repr

namespace Reader

/-- One character more. -/
def push (r : Reader) (c : Char) : Reader :=
  if c = '\'' ∧ !r.double then { r with single := !r.single, word := c :: r.word }
  else if c = '"' ∧ !r.single then { r with double := !r.double, word := c :: r.word }
  else if Text.isBlank c ∧ !r.single ∧ !r.double then
    { r with
      before := c :: (r.word ++ r.before)
      word := []
      completed := if r.word.isEmpty then r.completed else r.completed + 1 }
  else { r with word := c :: r.word }

end Reader

/-- The word that a line ends in. -/
def currentWord (line : Text) : CurrentWord :=
  let r := line.foldl Reader.push {}
  { before := r.before.reverse, word := r.word.reverse, isFirst := r.completed = 0 }

end LineShell.Completion
