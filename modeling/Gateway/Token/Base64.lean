import Gateway.Decimal.Digits

/-!
# Base64 for URLs

The parts of a token are octets in sixty-four letters, without padding. Three octets become four
letters; one or two octets at the end become two or three. There is one spelling for each row of
octets: other letters, padding, a single letter at the end, and letters at the end with bits that
belong to no octet are all refused.

## Main definitions

* `Base64.encode`: The letters of a row of octets.
* `Base64.decode`: The octets of a row of letters, or what is wrong with them.
-/

namespace Gateway

namespace Base64

/-- The letter of a number below sixty-four. -/
def letter (n : Nat) : UInt8 :=
  if n < 26 then (65 + n).toUInt8
  else if n < 52 then (71 + n).toUInt8
  else if n < 62 then (n - 4).toUInt8
  else if n = 62 then 45
  else 95

/-- The number of a letter. -/
def number? (b : UInt8) : Option Nat :=
  let n := b.toNat
  if 65 ≤ n ∧ n ≤ 90 then some (n - 65)
  else if 97 ≤ n ∧ n ≤ 122 then some (n - 71)
  else if 48 ≤ n ∧ n ≤ 57 then some (n + 4)
  else if n = 45 then some 62
  else if n = 95 then some 63
  else none

/-- The letters of a row of octets. -/
def encode : Bytes → Bytes
  | [] => []
  | [a] => [letter (a.toNat / 4), letter (a.toNat % 4 * 16)]
  | [a, b] =>
    [letter (a.toNat / 4), letter (a.toNat % 4 * 16 + b.toNat / 16), letter (b.toNat % 16 * 4)]
  | a :: b :: c :: rest =>
    letter (a.toNat / 4) :: letter (a.toNat % 4 * 16 + b.toNat / 16)
      :: letter (b.toNat % 16 * 4 + c.toNat / 64) :: letter (c.toNat % 64) :: encode rest

/-- Why a row of letters stands for no octets. -/
inductive Fault where
  | symbol (offset : Nat) (symbol : UInt8)
  -- A single letter is left at the end.
  | length (n : Nat)
  -- The last letter, at an offset, has bits that belong to no octet.
  | lastSymbol (offset : Nat) (symbol : UInt8)
  | padding
  deriving DecidableEq, Repr

/-- The message of a fault. -/
def Fault.message : Fault → String
  | .symbol offset b =>
    "Invalid symbol " ++ Decimal.text b.toNat ++ ", offset " ++ Decimal.text offset ++ "."
  | .length n => "Invalid input length: " ++ Decimal.text n
  | .lastSymbol offset b =>
    "Invalid last symbol " ++ Decimal.text b.toNat ++ ", offset " ++ Decimal.text offset ++ "."
  | .padding => "Invalid padding"

/-- The sign that padding is made of. -/
def pad : UInt8 := 61

/-- The numbers of a row of letters, of which the first has the given offset. Padding is told from
    other symbols only where it could stand, after two letters of the last four, which start at
    `last`; a letter after it makes the first sign of it a wrong symbol. -/
def numbers (last : Nat) : Nat → Bytes → Except Fault (List Nat)
  | _, [] => .ok []
  | offset, b :: bs =>
    match number? b with
    | some n => (numbers last (offset + 1) bs).map (n :: ·)
    | none =>
      if b == pad && last + 2 ≤ offset && bs.all (· == pad) then .error .padding
      else .error (.symbol offset b)

/-- The octets of a row of numbers below sixty-four; nothing when one number is left over, or when
    the last has bits to spare. -/
def pack? : List Nat → Option Bytes
  | [] => some []
  | [_] => none
  | [a, b] => if b % 16 = 0 then some [(a * 4 + b / 16).toUInt8] else none
  | [a, b, c] =>
    if c % 4 = 0 then some [(a * 4 + b / 16).toUInt8, (b % 16 * 16 + c / 4).toUInt8] else none
  | a :: b :: c :: d :: rest =>
    (pack? rest).map fun octets =>
      (a * 4 + b / 16).toUInt8 :: (b % 16 * 16 + c / 4).toUInt8
        :: (c % 4 * 64 + d).toUInt8 :: octets

/-- Whether a row of letters has one too many at its end and that one is no letter at all. -/
def strayEnd? (bs : Bytes) : Option UInt8 :=
  if bs.length % 4 = 1 then
    match bs.getLast? with
    | some b => if b != pad && (number? b).isNone then some b else none
    | none => none
  else none

/-- The octets of a row of letters. A stray symbol at the end is reported before all else. -/
def decode (bs : Bytes) : Except Fault Bytes :=
  match strayEnd? bs with
  | some b => .error (.symbol (bs.length - 1) b)
  | none =>
    match numbers ((bs.length - 1) / 4 * 4) 0 bs with
    | .error e => .error e
    | .ok ns =>
      if ns.length % 4 = 1 then .error (.length ns.length)
      else match pack? ns with
        | some octets => .ok octets
        | none => .error (.lastSymbol (ns.length - 1) (bs.getLast?.getD pad))

end Base64

end Gateway
