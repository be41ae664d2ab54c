import LineShell.Text.Blank

/-! How a program describes itself: by a line of its help, or by the summary of its manual page. -/

namespace LineShell.Help

open Text

/-- The most characters of a description. -/
def longest : Nat := 200

/-- The lines of a help that are looked at. -/
def lookedAt : Nat := 5

/-- Whether a line tells something about the program. -/
def isTelling (line : Text) : Bool :=
  !line.isEmpty && !"Usage:".toList.isPrefixOf line && !"Options:".toList.isPrefixOf line

/-- A description cut to the longest that is shown. -/
def cut (t : Text) : Text :=
  if t.length > longest then t.take longest ++ "..." else t

/-- The first telling line of a help. -/
def descriptionLine? (output : Text) : Option Text :=
  (((lines (trim output)).take lookedAt).map trim |>.find? isTelling).map cut

/-- What follows the dash in the first line of a manual's summary. -/
def summary? (output : Text) : Option Text :=
  (((lines output).head?.bind (after? " - ")).map trim).filter (!·.isEmpty)

end LineShell.Help
