import Gateway.Json.Writer

/-!
# Identifiers

Requests and calls are given identifiers in the form of random UUIDs: thirty-two hexadecimal digits
in five groups, of which one digit tells the version. What matters of an identifier is its length
and that no two are the same, so they are made from numbers. Identifiers that others have made may
be written in some more ways.

## Main definitions

* `Uuid.numbered`: The identifier of a number.
* `Uuid.forms`: The forms it may be written in.
* `Uuid.isRandom`: Whether a text is a random identifier in one of them.
-/

namespace Gateway

namespace Uuid

/-- The last hexadecimal digits of a number, as many as asked for. -/
def hexDigits : Nat → Nat → List Char
  | 0, _ => []
  | k + 1, n => hexDigits k (n / 16) ++ [Char.ofNat (Json.hexDigit (n % 16)).toNat]

/-- The identifier of a number below `2 ^ 48`. -/
def numbered (n : Nat) : String :=
  "00000000-0000-4000-8000-" ++ String.ofList (hexDigits 12 n)

/-- Whether a character is a hexadecimal digit, in either case. -/
def isHex (c : Char) : Bool :=
  c.isDigit || ('a' ≤ c && c ≤ 'f') || ('A' ≤ c && c ≤ 'F')

/-- The five groups of a random identifier, a sign for each place: `x` for any digit, and anything
    else for itself. The first digit of the third group tells the version. -/
def groups : String :=
  "xxxxxxxx-xxxx-4xxx-xxxx-xxxxxxxxxxxx"

/-- The forms a random identifier may be written in: the groups, also in braces or with a scheme in
    front, and the digits without hyphens between them. -/
def forms : List (List Char) :=
  [groups.toList, groups.toList.filter (· != '-'), "\x7b".toList ++ groups.toList ++ "\x7d".toList,
    "urn:uuid:".toList ++ groups.toList]

/-- Whether a character may stand at a place of a form. -/
def fits (place c : Char) : Bool :=
  if place = 'x' then isHex c else place == c

/-- Whether a text is a random identifier in one of the forms. -/
def isRandom (s : String) : Bool :=
  let cs := s.toList
  forms.any fun form => cs.length == form.length && (form.zip cs).all fun (p, c) => fits p c

end Uuid

end Gateway
