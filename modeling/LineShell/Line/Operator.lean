import LineShell.Text.Basic

/-! The redirection operators. All nine are read, so that a line with one that is not carried out
is refused by its name instead of losing it among the arguments. -/

namespace LineShell

inductive Operator where
  | overwrite
  | append
  | input
  | errors
  | both
  | duplicateOutput
  | duplicateInput
  | readWrite
  | hereDocument
  deriving DecidableEq, Repr

namespace Operator

/-- How the operator is written. -/
def text : Operator → Text
  | overwrite => ">"
  | append => ">>"
  | input => "<"
  | errors => "2>"
  | both => "&>"
  | duplicateOutput => ">&"
  | duplicateInput => "<&"
  | readWrite => "<>"
  | hereDocument => "<<"

/-- The operator that two characters spell. -/
def ofPair? : Char → Char → Option Operator
  | '>', '>' => some append
  | '2', '>' => some errors
  | '&', '>' => some both
  | '>', '&' => some duplicateOutput
  | '<', '&' => some duplicateInput
  | '<', '>' => some readWrite
  | '<', '<' => some hereDocument
  | _, _ => none

/-- The operator that one character spells. -/
def ofChar? : Char → Option Operator
  | '>' => some overwrite
  | '<' => some input
  | _ => none

end Operator

end LineShell
