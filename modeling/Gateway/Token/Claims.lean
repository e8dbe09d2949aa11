import Gateway.Json.Forgiving
import Gateway.Token.Base64
import Gateway.Token.Key
import Gateway.Token.Sha256

/-!
# Tokens

A caller shows who they are by a token: a header and claims, each JSON in sixty-four letters, and a
signature over the two, joined by dots. A token is accepted only if it is signed with the shared
secret by the one method the gateway uses, and has not expired.

The parts are checked in order, and the claims are looked at only after the signature, so an answer
tells nothing about claims that nobody signed. A token that is meant for a named audience is
refused, as the gateway is none.

Claims are read twice: once for what they say of the bearer, and once for what restricts the use of
the token. The second reading is a forgiving one: a start of validity, an issuer or an audience that
cannot be read does not restrict anything.

## Main definitions

* `Claims`: What a token says of its bearer.
* `TokenError`: Why a token is refused.
* `Token.split?`: The parts of a token.
* `Token.verify`: Checks a token at a given time.
-/

namespace Gateway

/-- What a token says of its bearer. -/
structure Claims where
  sub : String
  email : Option String
  role : String
  -- When the token expires, in seconds since 1970.
  exp : Nat
  deriving DecidableEq, Repr

namespace Claims

/-- Claims while they are being read. -/
structure Draft where
  sub : Option String := none
  email : Option (Option String) := none
  role : Option String := none
  exp : Option Nat := none

/-- The fields of the claims. -/
def record : Json.Record Draft Claims where
  fields := [
    .of "sub" .text (·.sub) fun d v => { d with sub := some v },
    .of "email" .optionalText (·.email) fun d v => { d with email := some v },
    .of "role" .textOrEmpty (·.role) fun d v => { d with role := some v },
    .of "exp" .word (·.exp) fun d v => { d with exp := some v }]
  empty := {}
  build d := do
    let sub ← d.sub
    let email ← d.email
    let role ← d.role
    let exp ← d.exp
    pure ⟨sub, email, role, exp⟩

/-- The compact text of claims, their fields in their declared order. -/
def toText (c : Claims) : Bytes :=
  Json.write (.object ([("sub", Json.string c.sub)]
    ++ (c.email.map fun e => ("email", Json.string e)).toList
    ++ [("role", .string c.role), ("exp", .ofNat c.exp)]))

end Claims

/-- Why a token is refused. -/
inductive TokenError where
  | parts
  | base64 (fault : Base64.Fault)
  | json
  | algorithm
  | signature
  | expired
  -- It is meant for a named audience.
  | audience
  deriving DecidableEq, Repr

/-- The message of a refusal. What exactly is wrong with the JSON of a part is not told; its place
    in the message is marked. -/
def TokenError.message : TokenError → String
  | .parts => "Invalid token: InvalidToken"
  | .base64 fault => "Invalid token: Base64 error: " ++ fault.message
  | .json => "Invalid token: JSON error: <detail>"
  | .algorithm => "Invalid token: InvalidAlgorithm"
  | .signature => "Invalid token signature"
  | .expired => "Token expired"
  | .audience => "Invalid token: InvalidAudience"

namespace Token

open Json

/-- The methods of signing that a header may name. -/
def algorithms : List String :=
  ["HS256", "HS384", "HS512", "ES256", "ES384", "RS256", "RS384", "RS512", "PS256", "PS384",
    "PS512", "EdDSA"]

/-- The one method of signing that is accepted. -/
def accepted : String := "HS256"

/-- How many seconds after its expiry a token is still accepted. -/
def leeway : Nat := 60

/-- A header while it is being read: the method of signing, and the names of the other members. -/
structure HeaderDraft where
  alg : Option String := none
  seen : List String := []

/-- A member of the header that may be missing and is checked and not kept. An array has to have
    it, if only as `null`. -/
def checked {β : Type} (name : String) (kind : Kind β) : RecordField HeaderDraft :=
  .checked name kind.optional.placed (·.seen) fun d name => { d with seen := name :: d.seen }

/-- The header of a token; only the method of signing is kept. -/
def header : Record HeaderDraft String where
  fields := [
    checked "typ" .text,
    .of "alg" (Key.oneOf algorithms false) (·.alg) fun d v => { d with alg := some v },
    checked "cty" .text,
    checked "jku" .text,
    checked "jwk" Key.kind,
    checked "kid" .text,
    checked "x5u" .text,
    checked "x5c" .texts,
    checked "x5t" .text,
    checked "x5t#S256" .text]
  empty := {}
  build d := d.alg

/-- Whether a value names an audience: a string or a list of strings. -/
def namesAudience (v : Json) : Bool :=
  (Kind.text? v).isSome || (Kind.texts? v).isSome

/-- Any value, or nothing if it cannot be read and is forgiven. -/
def tolerated : Kind (Option Json) :=
  ⟨attempt, fun v => some (some v), some none, none⟩

/-- A moment that is not looked at. Anything may stand in its place that can be read or is forgiven,
    except that an array or object is not entered, so there may be nothing in it. -/
def moment : Kind Unit where
  ofText depth bs :=
    let brackets (mark : UInt8) (bs : Bytes) : Reading Unit :=
      match close mark bs with
      | some bs => .ok ((), bs)
      | none => .error .malformed
    match skipBlanks bs with
    | [] => .error .endOfInput
    | b :: rest =>
      if b == ascii '[' then brackets (ascii ']') rest
      else if b == ascii '{' then brackets (ascii '}') rest
      else (attempt depth (b :: rest)).map fun (_, bs) => ((), bs)
  ofValue?
    | .array (_ :: _) | .object (_ :: _) => none
    | _ => some ()
  missing := some ()
  short := none

/-- The claims that restrict where and when a token may be used, while they are being read. -/
structure Restrictions where
  -- Whether a start of validity was read.
  nbf : Option Unit := none
  iss : Option (Option Json) := none
  aud : Option (Option Json) := none

/-- The restrictions in the claims. The start of validity and the issuer are not enforced, but they
    may each be given once only. -/
def restrictions : Record Restrictions Restrictions where
  fields := [
    .of "nbf" moment (·.nbf) fun d v => { d with nbf := some v },
    .of "iss" tolerated (·.iss) fun d v => { d with iss := some v },
    .of "aud" tolerated (·.aud) fun d v => { d with aud := some v }]
  empty := {}
  build := some

/-- The parts of a token. -/
structure Parts where
  -- Everything before the second dot from the end.
  header : String
  payload : String
  signature : String

/-- Splits at the last dot; nothing when there is none. -/
def splitLast? (cs : List Char) : Option (List Char × List Char) :=
  let back := cs.reverse
  let tail := back.takeWhile (· != '.')
  match back.drop tail.length with
  | [] => none
  | _ :: front => some (front.reverse, tail.reverse)

/-- The parts of a token, if there are two dots in it. -/
def split? (token : String) : Option Parts := do
  let (message, signature) ← splitLast? token.toList
  let (header, payload) ← splitLast? message
  pure ⟨String.ofList header, String.ofList payload, String.ofList signature⟩

/-- The letters of the signature of a message. -/
def sign (secret : String) (message : String) : Bytes :=
  Base64.encode (Hmac.sha256 (utf8 secret) (utf8 message))

/-- The octets of a part. -/
def octets (part : String) : Except TokenError Bytes :=
  match Base64.decode (utf8 part) with
  | .ok bs => .ok bs
  | .error fault => .error (.base64 fault)

/-- Reads a record from octets, whatever is wrong with them being one refusal. -/
def readPart {σ α : Type} (r : Record σ α) (bs : Bytes) : Except TokenError α :=
  match r.ofText bs with
  | .ok v => .ok v
  | .error _ => .error .json

/-- Whether the octets of the claims are an array. -/
def isArray (bs : Bytes) : Bool :=
  (skipBlanks bs).head? == some (ascii '[')

/-- The claims in the octets of a payload, and the audience they name. -/
def readClaims (bs : Bytes) : Except TokenError (Claims × Option Json) := do
  let claims ← readPart Claims.record bs
  -- No array has room for the restrictions.
  if isArray bs then throw .json
  let limits ← readPart restrictions bs
  pure (claims, limits.aud.join)

/-- Checks a token against a secret at a time in seconds since 1970, and gives its claims. -/
def verify (secret : String) (now : Nat) (token : String) : Except TokenError Claims :=
  match split? token with
  | none => .error .parts
  | some p => do
    -- The order is that of the refusals: nothing of the claims is read before the signature holds.
    let alg ← octets p.header >>= readPart header
    if alg ≠ accepted then throw .algorithm
    if utf8 p.signature ≠ sign secret (p.header ++ "." ++ p.payload) then throw .signature
    let (claims, aud) ← octets p.payload >>= readClaims
    if claims.exp < now - leeway then throw .expired
    if (aud.map namesAudience).getD false then throw .audience
    pure claims

end Token

end Gateway
