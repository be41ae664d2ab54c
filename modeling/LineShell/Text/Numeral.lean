import LineShell.Text.Basic

/-! Decimal numerals as commands take them: an optional sign, at least one digit, and a value
that fits the machine's integers. -/

namespace LineShell.Text

/-- The value of a run of ASCII digits; `none` for anything else and for no digits at all. -/
def digits? (t : Text) : Option Nat :=
  if t.isEmpty || !t.all Char.isDigit then none
  else some (t.foldl (fun n c => n * 10 + (c.toNat - '0'.toNat)) 0)

/-- The largest line count. -/
def maxCount : Nat := 18446744073709551615

/-- A count: digits after an optional plus sign, below 2^64. -/
def count? (t : Text) : Option Nat :=
  let n? := match t with
    | '+' :: rest => digits? rest
    | _ => digits? t
  n?.filter (· ≤ maxCount)

/-- An integer: digits after an optional sign, from -2^63 to 2^63 - 1. -/
def integer? (t : Text) : Option Int :=
  let n? : Option Int := match t with
    | '+' :: rest => (digits? rest).map Int.ofNat
    | '-' :: rest => (digits? rest).map fun n => -(n : Int)
    | _ => (digits? t).map Int.ofNat
  n?.filter fun n => -9223372036854775808 ≤ n && n ≤ 9223372036854775807

end LineShell.Text
