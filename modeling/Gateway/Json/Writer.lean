import Gateway.Json.Value

/-!
# JSON text

The compact text of a value: no spaces, members in key order, and in strings only the two
characters that must be escaped and the control characters are. The text is built back to front,
so that a long array costs no stack; `Json.write` turns it round at the end.

## Main definitions

* `Json.writeString`: A text in quotes.
* `Json.write`: The text of a value.
* `Json.text`: The same as a `String`.
-/

namespace Gateway

/-- The octet of a character below 128. -/
def ascii (c : Char) : UInt8 :=
  c.toNat.toUInt8

namespace Json

/-- A hexadecimal digit in lower case. -/
def hexDigit (n : Nat) : UInt8 :=
  if n < 10 then (48 + n).toUInt8 else (87 + n).toUInt8

/-- The octets of a character inside quotes. The two-letter escapes are preferred; every other
    control character is written by its number. -/
def escapeChar (c : Char) : Bytes :=
  if c = '"' then [ascii '\\', ascii '"']
  else if c = '\\' then [ascii '\\', ascii '\\']
  else if c.toNat = 8 then [ascii '\\', ascii 'b']
  else if c.toNat = 9 then [ascii '\\', ascii 't']
  else if c.toNat = 10 then [ascii '\\', ascii 'n']
  else if c.toNat = 12 then [ascii '\\', ascii 'f']
  else if c.toNat = 13 then [ascii '\\', ascii 'r']
  else if c.toNat < 32 then
    [ascii '\\', ascii 'u', ascii '0', ascii '0', hexDigit (c.toNat / 16), hexDigit (c.toNat % 16)]
  else Utf8.encodeChar c

/-- A text in quotes. -/
def writeString (s : String) : Bytes :=
  ascii '"' :: (s.toList.flatMap escapeChar ++ [ascii '"'])

/-- The text of an integer. -/
def writeInt (n : Int) : Bytes :=
  if n < 0 then ascii '-' :: Decimal.digits n.natAbs else Decimal.digits n.natAbs

/-- The text of a number. -/
def writeNumber : Number → Bytes
  | .integer n _ => writeInt n
  | .fraction x => utf8 x.text

mutual

/-- Puts the text of a value, back to front, before `acc`. -/
def writeOnto : Json → Bytes → Bytes
  | .null, acc => (utf8 "null").reverseAux acc
  | .bool true, acc => (utf8 "true").reverseAux acc
  | .bool false, acc => (utf8 "false").reverseAux acc
  | .number n, acc => (writeNumber n).reverseAux acc
  | .string s, acc => (writeString s).reverseAux acc
  | .array items, acc => ascii ']' :: writeItemsOnto true items (ascii '[' :: acc)
  | .object members, acc => ascii '}' :: writeMembersOnto true members (ascii '{' :: acc)

/-- Puts the texts of items before `acc`, with a comma before each but the first. -/
def writeItemsOnto : Bool → List Json → Bytes → Bytes
  | _, [], acc => acc
  | first, v :: rest, acc =>
    writeItemsOnto false rest (writeOnto v (if first then acc else ascii ',' :: acc))

/-- Puts the texts of members before `acc`, with a comma before each but the first. -/
def writeMembersOnto : Bool → List (String × Json) → Bytes → Bytes
  | _, [], acc => acc
  | first, (k, v) :: rest, acc =>
    let acc := if first then acc else ascii ',' :: acc
    writeMembersOnto false rest (writeOnto v (ascii ':' :: (writeString k).reverseAux acc))

end

/-- The compact text of a value. -/
def write (v : Json) : Bytes :=
  (writeOnto v []).reverse

/-- The compact text of a value as a `String`. -/
def text (v : Json) : String :=
  (Utf8.decode v.write).getD ""

end Json

end Gateway
