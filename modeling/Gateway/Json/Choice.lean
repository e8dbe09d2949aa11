import Gateway.Json.Record

/-!
# Reading choices

Where one of some names is asked for, it is given as a string, or as the only key of an object. In
an object there has to be a value with it, which says nothing: `null`, and in some places also an
empty object. A name that is none of those asked for is refused before what follows it is looked
at.

## Main definitions

* `Json.readChoice`: Reads a choice from text.
* `Json.choice?`: The choice in a value.
* `Json.Kind.choice`: A field that holds a choice.
-/

namespace Gateway

namespace Json

/-- Reads the value that goes with a name: `null`, or if allowed an empty object. -/
def readUnit (orEmpty : Bool) (bs : Bytes) : Except Fault Bytes :=
  match skipBlanks bs with
  | [] => .error .endOfInput
  | b :: rest =>
    if b == ascii 'n' then expect (utf8 "ull") rest
    else if orEmpty && b == ascii '{' then
      match skipBlanks rest with
      | [] => .error .endOfInput
      | c :: rest => if c == ascii '}' then .ok rest else .error .mismatched
    else .error (refusal (b :: rest))

/-- Reads a name from after its opening quote. -/
def readName {α : Type} (ofName? : String → Option α) (bs : Bytes) : Reading α :=
  match readString bs with
  | .error e => .error e
  | .ok (s, rest) =>
    match ofName? s with
    | some v => .ok (v, rest)
    | none => .error .mismatched

/-- Reads what follows the name in an object: a colon, a value that says nothing, and the closing
    brace. -/
def closeChoice (orEmpty : Bool) (bs : Bytes) : Except Fault Bytes :=
  match readColon bs with
  | .error e => .error e
  | .ok bs =>
    match readUnit orEmpty bs with
    | .error e => .error e
    | .ok bs =>
      match skipBlanks bs with
      | [] => .error .endOfInput
      | c :: rest => if c == ascii '}' then .ok rest else .error .malformed

/-- Reads a choice from text: a name as a string, or as the only key of an object. -/
def readChoice {α : Type} (ofName? : String → Option α) (orEmpty : Bool) (bs : Bytes) :
    Reading α :=
  match skipBlanks bs with
  | [] => .error .endOfInput
  | b :: rest =>
    if b == ascii '"' then readName ofName? rest
    else if b == ascii '{' then
      match skipBlanks rest with
      | [] => .error .endOfInput
      | q :: rest =>
        if q != ascii '"' then .error (refusal (q :: rest))
        else match readName ofName? rest with
          | .error e => .error e
          | .ok (v, rest) => (closeChoice orEmpty rest).map (v, ·)
    else .error .malformed

/-- The choice in a value. -/
def choice? {α : Type} (ofName? : String → Option α) (orEmpty : Bool) : Json → Option α
  | .string s => ofName? s
  | .object [(s, .null)] => ofName? s
  | .object [(s, .object [])] => if orEmpty then ofName? s else none
  | _ => none

/-- A choice that has to be made. -/
def Kind.choice {α : Type} (ofName? : String → Option α) (orEmpty : Bool) : Kind α :=
  ⟨fun _ => readChoice ofName? orEmpty, choice? ofName? orEmpty, none, none⟩

end Json

end Gateway
