import Gateway.Decimal.Digits

/-!
# Dates

A moment is counted in milliseconds since the start of 1970 and written as date and time of day in
UTC. Days are counted in eras of 400 years, each of 146097 days, with years that start in March, so
that a leap day is the last day of its year.

## Main definitions

* `Calendar.date`: Year, month and day of a day counted from 1970.
* `Calendar.stamp`: The text of a moment.
-/

namespace Gateway

namespace Calendar

/-- Year, month and day of a day counted from the start of 1970. -/
def date (days : Nat) : Nat × Nat × Nat :=
  let z := days + 719468
  let era := z / 146097
  let day := z % 146097
  let year := (day - day / 1460 + day / 36524 - day / 146096) / 365
  let inYear := day - (365 * year + year / 4 - year / 100)
  let month := (5 * inYear + 2) / 153
  let d := inYear - (153 * month + 2) / 5 + 1
  let m := if month < 10 then month + 3 else month - 9
  (era * 400 + year + (if m ≤ 2 then 1 else 0), m, d)

/-- A number with zeros before it, so that it has at least the given width. -/
def padded (width n : Nat) : String :=
  let s := Decimal.text n
  "".pushn '0' (width - s.length) ++ s

/-- The text of a moment given in milliseconds since the start of 1970. -/
def stamp (ms : Nat) : String :=
  let (y, m, d) := date (ms / 86400000)
  let t := ms % 86400000
  padded 4 y ++ "-" ++ padded 2 m ++ "-" ++ padded 2 d ++ "T" ++ padded 2 (t / 3600000) ++ ":"
    ++ padded 2 (t / 60000 % 60) ++ ":" ++ padded 2 (t / 1000 % 60) ++ "." ++ padded 3 (t % 1000)
    ++ "Z"

end Calendar

end Gateway
