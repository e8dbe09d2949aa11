/-!
# UTF-8

Everything that crosses a connection is bytes, and everything the gateway decides on is text, so
the two are tied together here once. Octets are read one character at a time; a character is
accepted only in its shortest form and never as half of a surrogate pair, so a text has exactly
one encoding and `decode` is the partial inverse of `encode`.

## Main definitions

* `Utf8.encodeChar`, `Utf8.encode`: The octets of a character and of a text.
* `Utf8.decodeChar`: The first character of a row of octets, and what follows it.
* `Utf8.decode`: The text of a whole row of octets, if it is well formed.
* `Utf8.decodeLossy`: The text of any row of octets, with signs in place of what is not well formed.
-/

namespace Gateway

/-- A row of octets as it stands on a connection, in a body or in a buffer. -/
abbrev Bytes := List UInt8

namespace Utf8

/-- The octets of one character, between one and four of them. -/
def encodeChar (c : Char) : Bytes :=
  let n := c.toNat
  if n < 0x80 then [n.toUInt8]
  else if n < 0x800 then [(0xC0 + n / 64).toUInt8, (0x80 + n % 64).toUInt8]
  else if n < 0x10000 then
    [(0xE0 + n / 4096).toUInt8, (0x80 + n / 64 % 64).toUInt8, (0x80 + n % 64).toUInt8]
  else
    [(0xF0 + n / 262144).toUInt8, (0x80 + n / 4096 % 64).toUInt8, (0x80 + n / 64 % 64).toUInt8,
      (0x80 + n % 64).toUInt8]

/-- The octets of a list of characters. -/
def encodeChars (cs : List Char) : Bytes :=
  cs.flatMap encodeChar

/-- The octets of a text. -/
def encode (s : String) : Bytes :=
  encodeChars s.toList

/-- The value of a continuation octet, `10xxxxxx`. -/
def tail? (b : UInt8) : Option Nat :=
  if 0x80 ≤ b.toNat ∧ b.toNat < 0xC0 then some (b.toNat - 0x80) else none

/-- The character with the given number, provided it needs at least `least` to be written in the
    length it was found in. -/
def scalar? (least n : Nat) : Option Char :=
  if h : least ≤ n ∧ n.isValidChar then some (Char.ofNatAux n h.2) else none

/-- The first character of a row of octets together with the rest of the row. -/
def decodeChar : Bytes → Option (Char × Bytes)
  | [] => none
  | a :: rest =>
    if a.toNat < 0x80 then (scalar? 0 a.toNat).map (·, rest)
    else if a.toNat < 0xC0 then none
    else if a.toNat < 0xE0 then
      match rest with
      | b :: rest => do
        let x ← tail? b
        let c ← scalar? 0x80 ((a.toNat - 0xC0) * 64 + x)
        pure (c, rest)
      | [] => none
    else if a.toNat < 0xF0 then
      match rest with
      | b :: c :: rest => do
        let x ← tail? b
        let y ← tail? c
        let r ← scalar? 0x800 ((a.toNat - 0xE0) * 4096 + x * 64 + y)
        pure (r, rest)
      | _ => none
    else if a.toNat < 0xF8 then
      match rest with
      | b :: c :: d :: rest => do
        let x ← tail? b
        let y ← tail? c
        let z ← tail? d
        let r ← scalar? 0x10000 ((a.toNat - 0xF0) * 262144 + x * 4096 + y * 64 + z)
        pure (r, rest)
      | _ => none
    else none

/-- Reads characters until the octets run out; `fuel` bounds their number. -/
def decodeFrom : Nat → List Char → Bytes → Option (List Char)
  | _, acc, [] => some acc.reverse
  | 0, _, _ :: _ => none
  | fuel + 1, acc, b :: bs =>
    match decodeChar (b :: bs) with
    | none => none
    | some (c, rest) => decodeFrom fuel (c :: acc) rest

/-- The text of a row of octets, or nothing when they are not well formed. Each character takes at
    least one octet, so the length of the row bounds the work. -/
def decode (bs : Bytes) : Option String :=
  (decodeFrom bs.length [] bs).map String.ofList

/-- Whether two octets may begin a character of three or four. The bounds on the second octet keep
    out longer forms than needed, surrogates, and what is beyond the last character. -/
def begins (a b : UInt8) : Bool :=
  let a := a.toNat
  let b := b.toNat
  if a = 0xE0 then 0xA0 ≤ b && b < 0xC0
  else if a = 0xED then 0x80 ≤ b && b < 0xA0
  else if a = 0xF0 then 0x90 ≤ b && b < 0xC0
  else if a = 0xF4 then 0x80 ≤ b && b < 0x90
  else 0xE0 < a && a < 0xF4 && 0x80 ≤ b && b < 0xC0

/-- How many octets are replaced together at the front of a row that begins with no character: as
    much of a character as there is, and at least one octet. -/
def damaged : Bytes → Nat
  | a :: b :: rest =>
    if !begins a b then 1
    else match rest with
      | c :: _ => if 0xF0 ≤ a.toNat && (tail? c).isSome then 3 else 2
      | [] => 2
  | _ => 1

/-- Reads characters, and one replacement for each piece that is not well formed; `fuel` bounds the
    number of both. -/
def decodeLossyFrom : Nat → List Char → Bytes → List Char
  | 0, acc, _ | _, acc, [] => acc.reverse
  | fuel + 1, acc, b :: bs =>
    match decodeChar (b :: bs) with
    | some (c, rest) => decodeLossyFrom fuel (c :: acc) rest
    | none => decodeLossyFrom fuel ('\uFFFD' :: acc) ((b :: bs).drop (damaged (b :: bs)))

/-- The text of a row of octets, for showing it: where they are not well formed, there is a
    replacement character. -/
def decodeLossy (bs : Bytes) : String :=
  String.ofList (decodeLossyFrom bs.length [] bs)

end Utf8

/-- The octets of a text. -/
def utf8 (s : String) : Bytes :=
  Utf8.encode s

end Gateway
