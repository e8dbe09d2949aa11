/-!
# White space

Values taken from the environment and from headers are stripped of surrounding white space, which
here is the Unicode property of that name.

## Main definitions

* `Text.isBlank`: Whether a character has the property.
* `Text.trim`: A text without white space at its ends.
-/

namespace Gateway

namespace Text

/-- The characters with the property White_Space. -/
def isBlank (c : Char) : Bool :=
  let n := c.toNat
  (9 ≤ n && n ≤ 13) || n == 0x20 || n == 0x85 || n == 0xA0 || n == 0x1680
    || (0x2000 ≤ n && n ≤ 0x200A) || n == 0x2028 || n == 0x2029 || n == 0x202F || n == 0x205F
    || n == 0x3000

/-- Drops white space at both ends of a list of characters. -/
def trimChars (cs : List Char) : List Char :=
  (((cs.dropWhile isBlank).reverse).dropWhile isBlank).reverse

/-- A text without white space at its ends. -/
def trim (s : String) : String :=
  String.ofList (trimChars s.toList)

/-- Whether a text has nothing but white space. -/
def isAllBlank (s : String) : Bool :=
  s.toList.all isBlank

end Text

end Gateway
