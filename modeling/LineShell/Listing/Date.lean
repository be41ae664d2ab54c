import LineShell.Files.Node
import LineShell.Outcome

/-! Times as a listing shows them: month, day, hour and minute by the clocks of the place. Years are
told from -262143 to 262142; a time outside them has no date. -/

namespace LineShell.Listing

def monthNames : List String :=
  ["Jan", "Feb", "Mar", "Apr", "May", "Jun", "Jul", "Aug", "Sep", "Oct", "Nov", "Dec"]

/-- The month, from 1 to 12, and the day of the month, of a day counted from the first of January
1970. Years are counted from March on, so that a leap day is the last day of its year. -/
def monthAndDay (day : Int) : Nat × Nat :=
  let ofEra := ((day + 719468).emod 146097).toNat
  let year := (ofEra - ofEra / 1460 + ofEra / 36524 - ofEra / 146096) / 365
  let ofYear := ofEra - (365 * year + year / 4 - year / 100)
  let month := (5 * ofYear + 2) / 153
  (if month < 10 then month + 3 else month - 9, ofYear - (153 * month + 2) / 5 + 1)

/-- A number below 100 in two digits. -/
def twoDigits (n : Nat) : Text :=
  if n < 10 then '0' :: Text.decimal n else Text.decimal n

/-- The first and the last second that have a date. -/
def firstSecond : Time := -8334601228800
def lastSecond : Time := 8210266876799

/-- A time as a listing shows it. -/
def date (zone : Time → Int) (t : Time) : Except Crash Text :=
  if t < firstSecond ∨ lastSecond < t then .error .date
  else
    let shown := t + zone t
    let (month, day) := monthAndDay (shown.fdiv 86400)
    let minute := (shown.emod 86400).toNat / 60
    .ok ((monthNames[month - 1]?.getD "") ++ [' '] ++ twoDigits day ++ [' '] ++
      twoDigits (minute / 60) ++ [':'] ++ twoDigits (minute % 60))

end LineShell.Listing
