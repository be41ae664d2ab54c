import LineShell.Text.Basic

/-! What can be wrong with a search pattern. -/

namespace LineShell.Glob

inductive PatternFault where
  | wildcards
  | recursiveWildcards
  | range
  deriving DecidableEq, Repr

def PatternFault.text : PatternFault → Text
  | wildcards => "wildcards are either regular `*` or recursive `**`"
  | recursiveWildcards => "recursive wildcards must form a single path component"
  | range => "invalid range pattern"

/-- A fault, and the number of characters in front of it. -/
structure PatternError where
  position : Nat
  fault : PatternFault
  deriving DecidableEq, Repr

def PatternError.message (e : PatternError) : Text :=
  "Pattern syntax error near position " ++ Text.decimal e.position ++ ": " ++ e.fault.text

end LineShell.Glob
