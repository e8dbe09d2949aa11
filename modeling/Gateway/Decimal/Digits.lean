import Gateway.Text.Utf8

/-!
# Decimal digits

Frame headers, numbers in bodies, ports and counters are all written in decimal. A number is
written without leading zeros; it is read from any row of digits, leading zeros included, and
`value` gives the number that a row of digits stands for.

## Main definitions

* `Decimal.digits`: The digits of a number, most significant first.
* `Decimal.value`: The number a row of digits stands for.
* `Decimal.spanDigits`: The longest run of digits at the front, and what follows it.
-/

namespace Gateway

namespace Decimal

/-- Whether an octet is one of the ten digits. -/
def isDigit (b : UInt8) : Bool :=
  48 ≤ b.toNat && b.toNat ≤ 57

/-- The octet of a digit. -/
def digit (n : Nat) : UInt8 :=
  (48 + n).toUInt8

/-- The number a digit stands for. -/
def digitValue (b : UInt8) : Nat :=
  b.toNat - 48

/-- The digits of `n`, most significant first and without leading zeros; zero is one digit. -/
def digits (n : Nat) : Bytes :=
  if n < 10 then [digit n] else digits (n / 10) ++ [digit (n % 10)]
termination_by n

/-- One more digit at the end of a number. -/
def push (n : Nat) (b : UInt8) : Nat :=
  n * 10 + digitValue b

/-- The number that a row of digits stands for. -/
def value (ds : Bytes) : Nat :=
  ds.foldl push 0

/-- The longest run of digits at the front of a row of octets, and what follows it. -/
def spanDigits (bs : Bytes) : Bytes × Bytes :=
  bs.span isDigit

/-- The decimal text of a number. -/
def text (n : Nat) : String :=
  String.ofList ((digits n).map fun b => Char.ofNat b.toNat)

/-- The number written by a text of digits alone, with at least one of them. -/
def ofText? (s : String) : Option Nat :=
  let ds := s.toList
  if ds.isEmpty || !ds.all (fun c => 48 ≤ c.toNat && c.toNat ≤ 57) then none
  else some (ds.foldl (fun n c => n * 10 + (c.toNat - 48)) 0)

end Decimal

end Gateway
