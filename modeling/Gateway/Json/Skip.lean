import Gateway.Json.Reader

/-!
# Skipping JSON

A member that nobody asked for is passed over without being kept. Passing over is more lenient
than reading: there is no limit on the nesting, numbers need not be in range, surrogates need not
be paired and octets need not be well formed. Brackets, quotes, escapes and the shape of numbers
are still checked, and a number that ends too early counts as malformed.

## Main definitions

* `Json.skipText`: Passes over a string from after its opening quote.
* `Json.skipNumber`: Passes over a number.
* `Json.skipValue`: Passes over any value.
-/

namespace Gateway

namespace Json

/-- Passes over a string from after its opening quote. -/
def skipText : Bytes → Except Fault Bytes
  | [] => .error .endOfInput
  | b :: bs =>
    if b == ascii '"' then .ok bs
    else if b == ascii '\\' then
      match bs with
      | [] => .error .endOfInput
      | e :: bs =>
        if e == ascii 'u' then
          match bs with
          | h₁ :: h₂ :: h₃ :: h₄ :: bs =>
            if (hexWord? h₁ h₂ h₃ h₄).isSome then skipText bs else .error .malformed
          | _ => .error .endOfInput
        else if (escaped? e).isSome then skipText bs
        else .error .malformed
    else if b.toNat < 32 then .error .malformed
    else skipText bs

/-- Passes over digits, of which there has to be one. -/
def skipDigits (bs : Bytes) : Except Fault Bytes :=
  match Decimal.spanDigits bs with
  | ([], _) => .error .malformed
  | (_, rest) => .ok rest

/-- Passes over an exponent, if one stands here. -/
def skipExponent : Bytes → Except Fault Bytes
  | [] => .ok []
  | b :: bs =>
    if b == ascii 'e' || b == ascii 'E' then
      match bs with
      | [] => .error .malformed
      | s :: rest => if s == ascii '-' || s == ascii '+' then skipDigits rest else skipDigits bs
    else .ok (b :: bs)

/-- Passes over a number from its first digit. -/
def skipUnsigned (bs : Bytes) : Except Fault Bytes := do
  let bs ← match bs with
    | [] => .error .malformed
    | b :: bs =>
      if b == ascii '0' then
        match bs with
        | c :: _ => if Decimal.isDigit c then .error .malformed else .ok bs
        | [] => .ok bs
      else skipDigits (b :: bs)
  match bs with
  | [] => .ok []
  | b :: rest => if b == ascii '.' then skipDigits rest >>= skipExponent else skipExponent bs

/-- Passes over a number from its sign or first digit. -/
def skipNumber : Bytes → Except Fault Bytes
  | [] => .error .malformed
  | b :: bs => if b == ascii '-' then skipUnsigned bs else skipUnsigned (b :: bs)

mutual

/-- Passes over a value. -/
def skipValue : Nat → Bytes → Except Fault Bytes
  | 0, _ => .error .malformed
  | fuel + 1, bs =>
    match skipBlanks bs with
    | [] => .error .endOfInput
    | b :: bs =>
      if b == ascii 'n' then expect (utf8 "ull") bs
      else if b == ascii 't' then expect (utf8 "rue") bs
      else if b == ascii 'f' then expect (utf8 "alse") bs
      else if b == ascii '"' then skipText bs
      else if startsNumber b then skipNumber (b :: bs)
      else if b == ascii '[' then
        match skipBlanks bs with
        | [] => .error .endOfInput
        | c :: rest => if c == ascii ']' then .ok rest else skipItems fuel bs
      else if b == ascii '{' then
        match skipBlanks bs with
        | [] => .error .endOfInput
        | c :: rest => if c == ascii '}' then .ok rest else skipMembers fuel bs
      else .error .malformed

/-- Passes over items up to the closing bracket. -/
def skipItems : Nat → Bytes → Except Fault Bytes
  | 0, _ => .error .malformed
  | fuel + 1, bs =>
    match skipValue fuel bs with
    | .error e => .error e
    | .ok bs =>
      match skipBlanks bs with
      | [] => .error .endOfInput
      | c :: bs =>
        if c == ascii ']' then .ok bs
        else if c == ascii ',' then skipItems fuel bs
        else .error .malformed

/-- Passes over members up to the closing brace. -/
def skipMembers : Nat → Bytes → Except Fault Bytes
  | 0, _ => .error .malformed
  | fuel + 1, bs =>
    match skipBlanks bs with
    | [] => .error .endOfInput
    | q :: bs =>
      if q != ascii '"' then .error .malformed
      else match skipText bs with
        | .error e => .error e
        | .ok bs =>
          match readColon bs with
          | .error e => .error e
          | .ok bs =>
            match skipValue fuel bs with
            | .error e => .error e
            | .ok bs =>
              match skipBlanks bs with
              | [] => .error .endOfInput
              | c :: bs =>
                if c == ascii '}' then .ok bs
                else if c == ascii ',' then skipMembers fuel bs
                else .error .malformed

end

end Json

end Gateway
