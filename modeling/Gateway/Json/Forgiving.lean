import Gateway.Json.Skip

/-!
# Reading what need not be right

Some members are of use if they can be read and do no harm if not. A value in such a place that
cannot be read is passed over, but only if the fault in it stands at its very end: reading stops
where the fault is met, and goes on from there as if the value had been read. So a number out of
range is forgiven, a string whose octets are not well formed, and a string at the end of which half
of a pair of surrogates is missing, as the closing quote is then taken for the beginning of the
other half. Of an array or object the last item or member may be forgiven, and no other; keys are
not, nor are values too deep.

An exponent that is too large for any number is a fault as soon as the digit is met that makes it
so; that digit has to be the last.

## Main definitions

* `Json.forgiveText`, `Json.forgiveNumber`, `Json.forgiveValue`: What follows a value that cannot
  be read.
* `Json.attempt`: Reads a value, or passes over one that is forgiven.
-/

namespace Gateway

namespace Json

/-- What follows a string, from after its opening quote, if it is read as far as its closing
    quote. -/
def forgiveText : Bytes → Option Bytes
  | [] => none
  | b :: bs =>
    if b == ascii '"' then some bs
    else if b == ascii '\\' then
      match bs with
      | [] => none
      | e :: bs =>
        if e == ascii 'u' then
          match bs with
          | h₁ :: h₂ :: h₃ :: h₄ :: bs =>
            match hexWord? h₁ h₂ h₃ h₄ with
            | none => none
            | some high =>
              if isLowSurrogate high then none
              else if isHighSurrogate high then
                match bs with
                | s :: u :: g₁ :: g₂ :: g₃ :: g₄ :: rest =>
                  if s == ascii '"' then some (u :: g₁ :: g₂ :: g₃ :: g₄ :: rest)
                  else if s == ascii '\\' && u == ascii 'u'
                      && (hexWord? g₁ g₂ g₃ g₄).any isLowSurrogate then forgiveText rest
                  else none
                | s :: rest => if s == ascii '"' then some rest else none
                | [] => none
              else forgiveText bs
          | _ => none
        else if (escaped? e).isSome then forgiveText bs
        else none
    else if b.toNat < 32 then none
    else forgiveText bs

/-- The largest exponent that is looked at. -/
def maxExponent : Nat := 0x7FFFFFFF

/-- What follows a number, from its first digit, if it is read as far as its last one. -/
def forgiveUnsigned (bs : Bytes) : Option Bytes :=
  match readWhole bs with
  | .error _ => none
  | .ok (_, bs) =>
    match readFraction bs with
    | .error _ => none
    | .ok (_, bs) =>
      match readExponent bs with
      | .error _ => none
      | .ok (some (false, digits), rest) =>
        if Decimal.value digits.dropLast ≤ maxExponent then some rest else none
      | .ok (_, rest) => some rest

/-- What follows a number, from its sign or first digit, if it is read as far as its last one. -/
def forgiveNumber : Bytes → Option Bytes
  | [] => none
  | b :: bs => if b == ascii '-' then forgiveUnsigned bs else forgiveUnsigned (b :: bs)

/-- What follows an octet, blanks before it allowed. -/
def close (mark : UInt8) (bs : Bytes) : Option Bytes :=
  match skipBlanks bs with
  | [] => none
  | b :: bs => if b == mark then some bs else none

mutual

/-- What follows a value that cannot be read where `depth` more brackets may be opened, if it is
    forgiven. -/
def forgiveValue : Nat → Nat → Bytes → Option Bytes
  | 0, _, _ => none
  | fuel + 1, depth, bs =>
    match skipBlanks bs with
    | [] => none
    | b :: bs =>
      if b == ascii '"' then forgiveText bs
      else if startsNumber b then forgiveNumber (b :: bs)
      else match depth with
        | 0 => none
        | depth + 1 =>
          if b == ascii '[' then forgiveItems fuel depth bs
          else if b == ascii '{' then forgiveMembers fuel depth bs
          else none

/-- What follows the items of an array, if the last of them is forgiven and the others are read. -/
def forgiveItems : Nat → Nat → Bytes → Option Bytes
  | 0, _, _ => none
  | fuel + 1, depth, bs =>
    match readValue (fuelFor bs) depth bs with
    | .ok (_, rest) => (close (ascii ',') rest).bind fun bs => forgiveItems fuel depth bs
    | .error _ => (forgiveValue fuel depth bs).bind (close (ascii ']'))

/-- What follows the members of an object, if the value of the last of them is forgiven and
    everything else is read. -/
def forgiveMembers : Nat → Nat → Bytes → Option Bytes
  | 0, _, _ => none
  | fuel + 1, depth, bs =>
    match close (ascii '"') bs with
    | none => none
    | some bs =>
      match readString bs with
      | .error _ => none
      | .ok (_, bs) =>
        match readColon bs with
        | .error _ => none
        | .ok bs =>
          match readValue (fuelFor bs) depth bs with
          | .ok (_, rest) => (close (ascii ',') rest).bind fun bs => forgiveMembers fuel depth bs
          | .error _ => (forgiveValue fuel depth bs).bind (close (ascii '}'))

end

/-- Reads a value where `depth` more brackets may be opened, or passes over one that is forgiven. -/
def attempt (depth : Nat) (bs : Bytes) : Reading (Option Json) :=
  match readValue (fuelFor bs) depth bs with
  | .ok (v, rest) => .ok (some v, rest)
  | .error e =>
    match forgiveValue (fuelFor bs) depth bs with
    | some rest => .ok (none, rest)
    | none => .error e

end Json

end Gateway
