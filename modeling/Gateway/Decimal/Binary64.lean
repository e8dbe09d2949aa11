import Gateway.Decimal.Digits

/-!
# Binary fractions in decimal

Numbers that are not integers, or integers too long for a word, are kept as IEEE 754 binary
fractions of 64 bits. Two rules tie them to decimal text.

Reading scales the digits by a power of ten in binary arithmetic: the digits are converted first
and then multiplied or divided once (twice, for exponents below the table of powers). A literal
whose value is not finite is out of range.

Writing prints the fewest digits that read back as the same fraction, and among those the ones
nearest to it. The fraction is `m · 2^q` for integers `m` and `q`; every real strictly between the
midpoints to its two neighbours rounds to it, and the midpoints themselves do exactly when `m` is
even. Grids of ever smaller powers of ten are searched for a point of that interval, and only the
two neighbours of the fraction on each grid need to be looked at.

## Main definitions

* `Binary64`: A finite or infinite binary fraction, held as its 64 bits.
* `Binary64.ofDecimal?`: The fraction read from digits and an exponent.
* `Binary64.shortest`: The fewest decimal digits that stand for a positive fraction.
* `Binary64.text`: The text of a fraction.
-/

namespace Gateway

/-- An IEEE 754 binary fraction of 64 bits. -/
structure Binary64 where
  -- Sign, eleven bits of exponent and fifty-two of fraction.
  bits : UInt64
  deriving DecidableEq, Repr, Inhabited

namespace Binary64

/-- The fraction as a machine number. -/
def toFloat (x : Binary64) : Float :=
  Float.ofBits x.bits

/-- The fraction that a machine number holds. -/
def ofFloat (f : Float) : Binary64 :=
  ⟨f.toBits⟩

/-- The largest power of ten in the table of powers. -/
def tableLimit : Nat := 308

/-- A power of ten, rounded to the nearest fraction. -/
def power (k : Nat) : Float :=
  Float.ofScientific 1 false k

/-- Scales a magnitude by a power of ten; nothing when the result is not finite. Below the table
    the magnitude is divided by the largest power first. -/
def scale? (f : Float) (exponent : Int) : Option Float :=
  if 0 ≤ exponent then
    if exponent ≤ tableLimit then
      let r := f * power exponent.toNat
      if r.isInf then none else some r
    else if f == 0 then some f else none
  else if -tableLimit ≤ exponent then some (f / power (-exponent).toNat)
  else
    -- What is left of a magnitude of 64 bits after two such divisions is zero.
    let g := f / power tableLimit
    let exponent := exponent + tableLimit
    if -tableLimit ≤ exponent then some (g / power (-exponent).toNat) else some 0

/-- The fraction `± significand · 10 ^ exponent`, or nothing when it is out of range. -/
def ofDecimal? (negative : Bool) (significand : UInt64) (exponent : Int) : Option Binary64 :=
  (scale? significand.toFloat exponent).map fun f => ofFloat (if negative then -f else f)

/-- Whether the sign bit is set. -/
def isNegative (x : Binary64) : Bool :=
  x.bits.toNat / 0x8000000000000000 == 1

/-- The eleven bits of exponent. -/
def exponentField (x : Binary64) : Nat :=
  x.bits.toNat / 0x10000000000000 % 0x800

/-- The fifty-two bits of fraction. -/
def fractionField (x : Binary64) : Nat :=
  x.bits.toNat % 0x10000000000000

/-- A nonnegative rational number, the denominator positive. -/
structure Ratio where
  num : Nat
  den : Nat

namespace Ratio

/-- `n · 2^k`. -/
def scaleTwo (n : Nat) (k : Int) : Ratio :=
  if 0 ≤ k then ⟨n * Nat.pow 2 k.toNat, 1⟩ else ⟨n, Nat.pow 2 (-k).toNat⟩

/-- `r / 10^k`. -/
def shiftTen (r : Ratio) (k : Int) : Ratio :=
  if 0 ≤ k then ⟨r.num, r.den * Nat.pow 10 k.toNat⟩
  else ⟨r.num * Nat.pow 10 (-k).toNat, r.den⟩

end Ratio

/-- What rounds to one positive fraction: everything between `low` and `high`, with the two ends
    when `closed`. All three numbers are over the same denominator. -/
structure Interval where
  low : Nat
  mid : Nat
  high : Nat
  den : Nat
  -- Whether the midpoints round to the fraction too.
  closed : Bool

/-- The interval of a positive finite fraction, whose neighbours are `2^q` apart. -/
def interval (x : Binary64) : Interval :=
  let e := x.exponentField
  let f := x.fractionField
  let m := if e = 0 then f else 0x10000000000000 + f
  let q : Int := (if e = 0 then 1 else e : Nat) - 1075
  -- The neighbour below a power of two is nearer, unless the exponent is the least one.
  let below := if f = 0 ∧ 1 < e then 1 else 2
  let unit := Ratio.scaleTwo 1 (q - 2)
  ⟨(4 * m - below) * unit.num, 4 * m * unit.num, (4 * m + 2) * unit.num, unit.den, m % 2 == 0⟩

/-- Whether `d · 10^k` lies in an interval, for `10^k = ten.num / ten.den`. -/
def Interval.holds (i : Interval) (ten : Ratio) (d : Nat) : Bool :=
  let x := d * ten.num * i.den
  let low := i.low * ten.den
  let high := i.high * ten.den
  if i.closed then low ≤ x && x ≤ high else low < x && x < high

/-- The point of the grid of `10^k` that stands for the interval's fraction, if the grid has one: of
    the two neighbours the one that lies inside. -/
def Interval.onGrid? (i : Interval) (k : Int) : Option Nat :=
  let ten := (Ratio.mk 1 1).shiftTen (-k)
  let whole := i.mid * ten.den / (i.den * ten.num)
  let down := i.holds ten whole
  let up := i.holds ten (whole + 1)
  let twice := 2 * i.mid * ten.den
  let half := (2 * whole + 1) * (i.den * ten.num)
  -- The nearer one, and of two equally near the even one.
  if down && up then
    if twice < half then some whole
    else if half < twice then some (whole + 1)
    else if whole % 2 == 0 then some whole else some (whole + 1)
  else if down then some whole
  else if up then some (whole + 1)
  else none

/-- Walks from a coarse grid to finer ones until one holds the fraction. -/
def searchGrid (i : Interval) : Nat → Int → Nat × Int
  | 0, k => (i.mid / i.den, k)
  | fuel + 1, k =>
    match i.onGrid? k with
    | some d => (d, k)
    | none => searchGrid i fuel (k - 1)

/-- The least `j` with `10^j · num ≥ den`, looked for upwards from `j`. -/
def leadingZeros (num den : Nat) : Nat → Nat → Nat
  | 0, j => j
  | fuel + 1, j => if den ≤ num * Nat.pow 10 j then j else leadingZeros num den fuel (j + 1)

/-- The decimal exponent of the leading digit of a positive fraction. -/
def leadingExponent (i : Interval) : Int :=
  if i.den ≤ i.mid then ((Decimal.digits (i.mid / i.den)).length - 1 : Nat)
  else -(leadingZeros i.mid i.den 400 0 : Nat)

/-- Drops trailing zeros from the digits, raising the exponent. -/
def trimZeros : Nat → Nat → Int → Nat × Int
  | 0, d, k => (d, k)
  | fuel + 1, d, k => if d % 10 = 0 ∧ d ≠ 0 then trimZeros fuel (d / 10) (k + 1) else (d, k)

/-- The fewest digits `d` and the exponent `k` for which `d · 10^k` stands for a positive finite
    fraction. Seventeen digits always suffice. -/
def shortest (x : Binary64) : Nat × Int :=
  let i := x.interval
  let (d, k) := searchGrid i 20 (leadingExponent i + 1)
  trimZeros 400 d k

/-- The way fractions are written: from which decimal exponent of the leading digit on they are
    positional, and from which on they are not any more. -/
structure Layout where
  -- The least exponent that is written positionally.
  least : Int
  -- The least exponent above those.
  beyond : Int

/-- Fractions in bodies are positional from `10^-5` up to but excluding `10^16`. -/
def bodyLayout : Layout := ⟨-5, 16⟩

/-- The text of the digits `d · 10^k`: positional with a point and at least one digit on either
    side, or the digits with the point after the first and a signed exponent. -/
def Layout.write (layout : Layout) (d : Nat) (k : Int) : String :=
  let ds := Decimal.text d
  let lead : Int := k + ds.length - 1
  if lead < layout.least ∨ layout.beyond ≤ lead then
    let tail := (ds.drop 1).toString
    let sign := if 0 ≤ lead then "+" else "-"
    (ds.take 1).toString ++ (if tail.isEmpty then "" else "." ++ tail) ++ "e" ++ sign
      ++ Decimal.text lead.natAbs
  else if 0 ≤ k then ds ++ "".pushn '0' k.toNat ++ ".0"
  else if 0 ≤ lead then
    (ds.take (lead.toNat + 1)).toString ++ "." ++ (ds.drop (lead.toNat + 1)).toString
  else "0." ++ "".pushn '0' (-lead - 1).toNat ++ ds

/-- The text of a finite fraction, with its sign even when it is zero. -/
def text (x : Binary64) : String :=
  let sign := if x.isNegative then "-" else ""
  if x.exponentField = 0 ∧ x.fractionField = 0 then sign ++ "0.0"
  else
    let (d, k) := x.shortest
    sign ++ bodyLayout.write d k

end Binary64

end Gateway
