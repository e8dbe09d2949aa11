import Gateway.Json.Writer

/-!
# Reading JSON

Text is read strictly: nothing but the grammar, at most 127 brackets deep, numbers in range,
surrogates in pairs and well-formed octets. What is wrong with a text is one of three causes, and
the cause that is met first counts. Every reader takes the octets from its own start and returns
what it read with the octets that follow, so readers compose without positions.

Arrays and objects bound their recursion by fuel. Reading a value takes two units for a bracket,
and one for an item or member, each of which takes at least one octet; `fuelFor` is therefore
enough for any text, and running out of it is never seen.

## Main definitions

* `Fault`: Why a text is refused.
* `Json.readText`, `Json.readString`: A text in quotes.
* `Json.readNumber`: A number.
* `Json.readValue`: Any value.
* `Json.parse`: A whole text.
-/

namespace Gateway

/-- Why a text is refused. -/
inductive Fault where
  | endOfInput
  -- The grammar has no such text.
  | malformed
  -- The text is JSON so far but not of the shape that is asked for.
  | mismatched
  deriving DecidableEq, Repr

/-- What a reader gives: a value and the octets after it, or the first fault. -/
abbrev Reading (α : Type) := Except Fault (α × Bytes)

namespace Json

/-- The most brackets that may be open at once. -/
def maxNesting : Nat := 127

/-- Fuel that suffices to read any value from the given octets. -/
def fuelFor (bs : Bytes) : Nat :=
  2 * bs.length + 2

/-- Space, tabulator, line feed and carriage return. -/
def isBlank (b : UInt8) : Bool :=
  b == 32 || b == 9 || b == 10 || b == 13

/-- Drops the blanks at the front. -/
def skipBlanks (bs : Bytes) : Bytes :=
  bs.dropWhile isBlank

/-- Reads the given octets and nothing else. -/
def expect : Bytes → Bytes → Except Fault Bytes
  | [], bs => .ok bs
  | _ :: _, [] => .error .endOfInput
  | w :: ws, b :: bs => if b == w then expect ws bs else .error .malformed

/-! ## Strings -/

/-- The value of a hexadecimal digit of either case. -/
def hexValue? (b : UInt8) : Option Nat :=
  let n := b.toNat
  if 48 ≤ n ∧ n ≤ 57 then some (n - 48)
  else if 97 ≤ n ∧ n ≤ 102 then some (n - 87)
  else if 65 ≤ n ∧ n ≤ 70 then some (n - 55)
  else none

/-- The number of sixteen bits written in four hexadecimal digits. -/
def hexWord? (a b c d : UInt8) : Option Nat := do
  let a ← hexValue? a
  let b ← hexValue? b
  let c ← hexValue? c
  let d ← hexValue? d
  pure (((a * 16 + b) * 16 + c) * 16 + d)

/-- The first half of a pair of surrogates. -/
def isHighSurrogate (n : Nat) : Bool :=
  0xD800 ≤ n && n ≤ 0xDBFF

/-- The second half of a pair of surrogates. -/
def isLowSurrogate (n : Nat) : Bool :=
  0xDC00 ≤ n && n ≤ 0xDFFF

/-- The octet a two-letter escape stands for. -/
def escaped? (b : UInt8) : Option UInt8 :=
  if b == ascii '"' || b == ascii '\\' || b == ascii '/' then some b
  else if b == ascii 'b' then some 8
  else if b == ascii 'f' then some 12
  else if b == ascii 'n' then some 10
  else if b == ascii 'r' then some 13
  else if b == ascii 't' then some 9
  else none

/-- Puts a character, back to front, before the octets collected so far. -/
def pushChar (n : Nat) (acc : Bytes) : Bytes :=
  (Utf8.encodeChar (Char.ofNat n)).reverseAux acc

/-- Reads from after an opening quote to the closing one and gives the octets that the text stands
    for; whether they are well formed is not asked here. -/
def readText : Bytes → Bytes → Reading Bytes
  | _, [] => .error .endOfInput
  | acc, b :: bs =>
    if b == ascii '"' then .ok (acc.reverse, bs)
    else if b == ascii '\\' then
      match bs with
      | [] => .error .endOfInput
      | e :: bs =>
        if e == ascii 'u' then
          -- Four octets are taken at once, and a text that has fewer left ends here.
          match bs with
          | h₁ :: h₂ :: h₃ :: h₄ :: bs =>
            match hexWord? h₁ h₂ h₃ h₄ with
            | none => .error .malformed
            | some high =>
              if isLowSurrogate high then .error .malformed
              else if isHighSurrogate high then
                -- The second half has to be escaped like the first.
                match bs with
                | [] => .error .endOfInput
                | s :: bs =>
                  if s != ascii '\\' then .error .malformed
                  else match bs with
                    | [] => .error .endOfInput
                    | u :: bs =>
                      if u != ascii 'u' then .error .malformed
                      else match bs with
                        | g₁ :: g₂ :: g₃ :: g₄ :: bs =>
                          match hexWord? g₁ g₂ g₃ g₄ with
                          | none => .error .malformed
                          | some low =>
                            if isLowSurrogate low then
                              readText
                                (pushChar (0x10000 + (high - 0xD800) * 1024 + (low - 0xDC00)) acc)
                                bs
                            else .error .malformed
                        | _ => .error .endOfInput
              else readText (pushChar high acc) bs
          | _ => .error .endOfInput
        else
          match escaped? e with
          | some c => readText (c :: acc) bs
          | none => .error .malformed
    else if b.toNat < 32 then .error .malformed
    else readText (b :: acc) bs

/-- Reads a string from after its opening quote. -/
def readString (bs : Bytes) : Reading String :=
  match readText [] bs with
  | .error e => .error e
  | .ok (octets, rest) =>
    match Utf8.decode octets with
    | some s => .ok (s, rest)
    | none => .error .malformed

/-! ## Numbers -/

/-- The parts of a number as it is written. -/
structure Literal where
  negative : Bool
  whole : Bytes
  fraction : Option Bytes
  -- The sign and digits of the exponent, if there is one.
  exponent : Option (Bool × Bytes)

/-- Appends digits to a number while it fits one word; gives the digits left over too. -/
def fillWord : Nat → Bytes → Nat × Bytes
  | n, [] => (n, [])
  | n, b :: bs =>
    if Decimal.push n b < 0x10000000000000000 then fillWord (Decimal.push n b) bs else (n, b :: bs)

/-- The fraction a literal stands for, of whose digits as many count as fit one word. -/
def Literal.fraction? (l : Literal) : Option Binary64 :=
  let (n, left) := fillWord 0 l.whole
  let digits := l.fraction.getD []
  let (n, dropped) := fillWord n digits
  -- Digits that did not fit are dropped. Before the point they still make the number larger; after
  -- it they never counted.
  let shift : Int := (left.length : Int) - (digits.length - dropped.length : Nat)
  let exponent : Int := match l.exponent with
    | none => 0
    | some (true, ds) => -(Decimal.value ds : Nat)
    | some (false, ds) => (Decimal.value ds : Nat)
  Binary64.ofDecimal? l.negative n.toUInt64 (shift + exponent)

/-- The number a literal stands for: an integer if it is written as one and fits. -/
def Literal.number? (l : Literal) : Option Number :=
  let (n, left) := fillWord 0 l.whole
  if l.fraction.isSome || l.exponent.isSome || !left.isEmpty then l.fraction?.map .fraction
  else if l.negative then
    -- Minus zero is no integer.
    if h : 0 < n ∧ n ≤ 0x8000000000000000 then some (.integer (-(n : Int)) (by omega))
    else l.fraction?.map .fraction
  else if h : n < 0x10000000000000000 then some (.ofWord n h)
  else l.fraction?.map .fraction

/-- Reads the digits before the point; a leading zero stands alone. -/
def readWhole : Bytes → Reading Bytes
  | [] => .error .endOfInput
  | b :: bs =>
    if b == ascii '0' then
      match bs with
      | c :: _ => if Decimal.isDigit c then .error .malformed else .ok ([b], bs)
      | [] => .ok ([b], bs)
    else if Decimal.isDigit b then .ok (Decimal.spanDigits (b :: bs))
    else .error .malformed

/-- Reads a point and the digits after it, if a point stands here. -/
def readFraction : Bytes → Reading (Option Bytes)
  | [] => .ok (none, [])
  | b :: bs =>
    if b == ascii '.' then
      match Decimal.spanDigits bs with
      | ([], []) => .error .endOfInput
      | ([], _ :: _) => .error .malformed
      | (ds, rest) => .ok (some ds, rest)
    else .ok (none, b :: bs)

/-- Reads the digits of an exponent, of which there has to be one. -/
def readExponentDigits (negative : Bool) (bs : Bytes) : Reading (Option (Bool × Bytes)) :=
  match Decimal.spanDigits bs with
  | ([], []) => .error .endOfInput
  | ([], _ :: _) => .error .malformed
  | (ds, rest) => .ok (some (negative, ds), rest)

/-- Reads an exponent, if one stands here. -/
def readExponent : Bytes → Reading (Option (Bool × Bytes))
  | [] => .ok (none, [])
  | b :: bs =>
    if b == ascii 'e' || b == ascii 'E' then
      match bs with
      | [] => .error .endOfInput
      | s :: rest =>
        if s == ascii '-' then readExponentDigits true rest
        else if s == ascii '+' then readExponentDigits false rest
        else readExponentDigits false bs
    else .ok (none, b :: bs)

/-- Reads a number from its first digit. -/
def readUnsigned (negative : Bool) (bs : Bytes) : Except Fault (Number × Bytes) := do
  let (whole, bs) ← readWhole bs
  let (fraction, bs) ← readFraction bs
  let (exponent, bs) ← readExponent bs
  match Literal.number? ⟨negative, whole, fraction, exponent⟩ with
  | some n => .ok (n, bs)
  | none => .error .malformed

/-- Reads a number from its sign or first digit. -/
def readNumber : Bytes → Reading Number
  | [] => .error .endOfInput
  | b :: bs => if b == ascii '-' then readUnsigned true bs else readUnsigned false (b :: bs)

/-- Whether a number may start with an octet. -/
def startsNumber (b : UInt8) : Bool :=
  b == ascii '-' || Decimal.isDigit b

/-! ## Values -/

/-- Reads a colon, blanks before it allowed. -/
def readColon (bs : Bytes) : Except Fault Bytes :=
  match skipBlanks bs with
  | [] => .error .endOfInput
  | b :: bs => if b == ascii ':' then .ok bs else .error .malformed

mutual

/-- Reads a value; `depth` more brackets may be opened. -/
def readValue : Nat → Nat → Bytes → Reading Json
  | 0, _, _ => .error .malformed
  | fuel + 1, depth, bs =>
    match skipBlanks bs with
    | [] => .error .endOfInput
    | b :: bs =>
      if b == ascii 'n' then (expect (utf8 "ull") bs).map (.null, ·)
      else if b == ascii 't' then (expect (utf8 "rue") bs).map (.bool true, ·)
      else if b == ascii 'f' then (expect (utf8 "alse") bs).map (.bool false, ·)
      else if b == ascii '"' then
        match readString bs with
        | .error e => .error e
        | .ok (s, bs) => .ok (.string s, bs)
      else if startsNumber b then
        match readNumber (b :: bs) with
        | .error e => .error e
        | .ok (n, bs) => .ok (.number n, bs)
      else if b == ascii '[' then
        match depth with
        | 0 => .error .malformed
        | depth + 1 =>
          match skipBlanks bs with
          | [] => .error .endOfInput
          | c :: rest =>
            if c == ascii ']' then .ok (.array [], rest) else readItems fuel depth [] bs
      else if b == ascii '{' then
        match depth with
        | 0 => .error .malformed
        | depth + 1 =>
          match skipBlanks bs with
          | [] => .error .endOfInput
          | c :: rest =>
            if c == ascii '}' then .ok (.object [], rest) else readMembers fuel depth [] bs
      else .error .malformed

/-- Reads items up to the closing bracket, the first of which has to be there. The items so far
    are kept back to front. -/
def readItems : Nat → Nat → List Json → Bytes → Reading Json
  | 0, _, _, _ => .error .malformed
  | fuel + 1, depth, acc, bs =>
    match readValue fuel depth bs with
    | .error e => .error e
    | .ok (v, bs) =>
      match skipBlanks bs with
      | [] => .error .endOfInput
      | c :: bs =>
        -- After a comma another item has to follow.
        if c == ascii ']' then .ok (.array (v :: acc).reverse, bs)
        else if c == ascii ',' then readItems fuel depth (v :: acc) bs
        else .error .malformed

/-- Reads members up to the closing brace, the first of which has to be there. -/
def readMembers : Nat → Nat → List (String × Json) → Bytes → Reading Json
  | 0, _, _, _ => .error .malformed
  | fuel + 1, depth, acc, bs =>
    match skipBlanks bs with
    | [] => .error .endOfInput
    | q :: bs =>
      if q != ascii '"' then .error .malformed
      else match readString bs with
        | .error e => .error e
        | .ok (key, bs) =>
          match readColon bs with
          | .error e => .error e
          | .ok bs =>
            match readValue fuel depth bs with
            | .error e => .error e
            | .ok (v, bs) =>
              match skipBlanks bs with
              | [] => .error .endOfInput
              | c :: bs =>
                -- Of members with one key the last one stays.
                if c == ascii '}' then .ok (.object (insert key v acc), bs)
                else if c == ascii ',' then readMembers fuel depth (insert key v acc) bs
                else .error .malformed

end

/-- What a reader gives for a whole text: nothing but blanks may follow. -/
def complete {α : Type} : Reading α → Except Fault α
  | .error e => .error e
  | .ok (v, bs) => if (skipBlanks bs).isEmpty then .ok v else .error .malformed

/-- Reads a whole text as one value. -/
def parse (bs : Bytes) : Except Fault Json :=
  complete (readValue (fuelFor bs) maxNesting bs)

end Json

end Gateway
