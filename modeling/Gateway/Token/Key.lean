import Gateway.Json.Choice

/-!
# Keys in tokens

The header of a token may describe a key. The gateway has a secret of its own and makes no use of
such a key, but what is said of it has to make sense: of four types of keys it has to be one, with
what belongs to that type, and the members that any key may have must be what they should be. A
member is counted where it is asked for: given twice it is a fault if it belongs to any key, while
one that belongs to a type only keeps the key from being of that type. Other members are let pass.

## Main definitions

* `Token.Key.anyKey`: The members that any key may have.
* `Token.Key.shapes`: The types of keys.
* `Token.Key.describes`: Whether an object describes a key.
* `Token.Key.kind`: A field that holds a key.
-/

namespace Gateway

namespace Token

namespace Key

open Json

/-- What a key is good for, by name. -/
def uses : List String :=
  ["HS256", "HS384", "HS512", "ES256", "ES384", "RS256", "RS384", "RS512", "PS256", "PS384",
    "PS512", "EdDSA", "RSA1_5", "RSA-OAEP", "RSA-OAEP-256"]

/-- The curves that a key may be on. -/
def curves : List String :=
  ["P-256", "P-384", "P-521", "Ed25519"]

/-- One of some names. -/
def oneOf (names : List String) (orEmpty : Bool) : Kind String :=
  .choice (fun s => names.find? (· == s)) orEmpty

/-- A member that is only checked. -/
def member {β : Type} (name : String) (kind : Kind β) : RecordField (List String) :=
  .checked name kind id fun names name => name :: names

/-- A record of which nothing is kept but that it can be read. -/
def shape (fields : List (RecordField (List String))) : Record (List String) Unit :=
  ⟨fields, [], fun _ => some ()⟩

/-- The members that any key may have. -/
def anyKey : Record (List String) Unit :=
  shape [
    member "use" .optionalText,
    member "key_ops" (Kind.optional .texts),
    member "alg" (Kind.optional (oneOf uses true)),
    member "kid" .optionalText,
    member "x5u" .optionalText,
    member "x5c" (Kind.optional .texts),
    member "x5t" .optionalText,
    member "x5t#S256" .optionalText]

/-- The types of keys: on a curve, of two factors, on a curve of the other form, and of octets. -/
def shapes : List (Record (List String) Unit) :=
  [shape [member "kty" (oneOf ["EC"] false), member "crv" (oneOf curves false),
      member "x" .text, member "y" .text],
    shape [member "kty" (oneOf ["RSA"] false), member "n" .text, member "e" .text],
    shape [member "kty" (oneOf ["oct"] false), member "k" .text],
    shape [member "kty" (oneOf ["OKP"] false), member "crv" (oneOf curves false),
      member "x" .text]]

/-- Whether a text can be read as a record. -/
def fits (r : Record (List String) Unit) (text : Bytes) : Bool :=
  match r.ofText text with
  | .ok _ => true
  | .error _ => false

/-- Whether the text of an object describes a key. -/
def describes (text : Bytes) : Bool :=
  fits anyKey text && shapes.any fun s => fits s text

/-- A key. Its text is read as a value first, so nothing in it may be out of range or out of
    place. -/
def kind : Kind Unit where
  ofText depth bs :=
    match readValue (fuelFor bs) depth bs with
    | .error e => .error e
    | .ok (.object _, rest) =>
      if describes (bs.take (bs.length - rest.length)) then .ok ((), rest)
      else .error .mismatched
    | .ok _ => .error .mismatched
  ofValue?
    | .object members => if describes (write (.object members)) then some () else none
    | _ => none
  missing := none
  short := none

end Key

end Token

end Gateway
