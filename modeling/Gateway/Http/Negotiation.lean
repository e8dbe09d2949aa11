import Gateway.Http.Message
import Gateway.Text.Blank

/-!
# What clients send and accept

Three small languages of headers. The content type of a body says whether it is JSON; the accepted
encodings say whether an answer may be compressed; the origin of a page says whether it may read
the answer.

## Main definitions

* `Http.MediaType.ofText?`, `Http.isJson`: Content types.
* `Http.prefersGzip`: Accepted encodings.
* `Http.Origins`: Which origins are allowed.
-/

namespace Gateway

namespace Http

/-! ## Content types -/

/-- A content type: its kind, its form, and the suffix after a plus sign if there is one. -/
structure MediaType where
  -- Before the slash.
  kind : String
  -- After the slash, up to the last plus sign.
  form : String
  -- After the last plus sign.
  suffix : Option String
  deriving DecidableEq, Repr

/-- Whether a character may stand in a quoted value. -/
def isQuotedChar (c : Char) : Bool :=
  32 ≤ c.toNat && c.toNat ≤ 126

/-- Where a list of parameters stands. -/
inductive ParameterState where
  | start
  | name
  | value
  | word
  -- Right after an opening quote.
  | opened
  | quoted
  | closed
  deriving DecidableEq, Repr

/-- The next place in a list of parameters, if the character may stand there. -/
def ParameterState.step (s : ParameterState) (c : Char) : Option ParameterState :=
  match s with
  | .start => if c = ' ' then some .start else if isToken c then some .name else none
  | .name => if c = '=' then some .value else if isToken c then some .name else none
  | .value => if c = '"' then some .opened else if isToken c then some .word else none
  | .word => if c = ';' then some .start else if isToken c then some .word else none
  -- A quoted value has a first character, which may be a quote, and ends at the next quote after
  -- that. A backslash is like any other character.
  | .opened => if isQuotedChar c then some .quoted else none
  | .quoted => if c = '"' then some .closed else if isQuotedChar c then some .quoted else none
  | .closed => if c = ';' then some .start else if c = ' ' then some .closed else none

/-- Whether a list of parameters may end here. -/
def ParameterState.isEnd : ParameterState → Bool
  | .start | .value | .word | .closed => true
  | _ => false

/-- Whether a text is a list of parameters. -/
def areParameters (cs : List Char) : Bool :=
  match cs.foldlM ParameterState.step .start with
  | some s => s.isEnd
  | none => false

/-- Splits what stands after the slash at its last plus sign, unless that is its first character. -/
def splitSuffix (form : List Char) : String × Option String :=
  let tail := form.reverse.takeWhile (· != '+')
  let front := form.take (form.length - tail.length - 1)
  if tail.length < form.length ∧ front ≠ [] then
    (String.ofList front, some (String.ofList tail.reverse))
  else (String.ofList form, none)

/-- The content type of a text, in lower case. -/
def MediaType.ofText? (s : String) : Option MediaType :=
  let cs := (lowerCase s).toList
  let kind := cs.takeWhile isToken
  match cs.drop kind.length with
  | '/' :: rest =>
    let form := rest.takeWhile isToken
    if kind.isEmpty then none
    else
      let (front, suffix) := splitSuffix form
      match rest.drop form.length with
      | [] => some ⟨String.ofList kind, front, suffix⟩
      | c :: parameters =>
        if c = ';' ∧ form ≠ [] ∧ areParameters parameters then
          some ⟨String.ofList kind, front, suffix⟩
        else none
  | _ => none

/-- Whether a content type is JSON or a form of it. -/
def MediaType.isJson (m : MediaType) : Bool :=
  m.kind == "application" && (m.form == "json" || m.suffix == some "json")

/-- Whether the body of a request is declared to be JSON. -/
def isJson (r : Request) : Bool :=
  match (r.value? "content-type").bind visible? |>.bind MediaType.ofText? with
  | some m => m.isJson
  | none => false

/-! ## Encodings -/

/-- The encodings the server knows, from the least preferred on. -/
inductive Encoding where
  | identity
  | gzip
  deriving DecidableEq, Repr

/-- The place of an encoding in the order of preference. -/
def Encoding.rank : Encoding → Nat
  | .identity => 0
  | .gzip => 1

/-- The encoding of a name, in any case. -/
def Encoding.ofName? (s : String) : Option Encoding :=
  let s := lowerCase s
  if s == "gzip" || s == "x-gzip" then some .gzip
  else if s == "identity" then some .identity
  else none

/-- A weight in thousandths: `0` or `1` with up to three places, at most one. -/
def weight? (s : String) : Option Nat :=
  let places (whole : Nat) (ds : List Char) : Option Nat :=
    if 3 < ds.length || !ds.all Char.isDigit then none
    else
      let n := ds.foldl (fun n c => n * 10 + (c.toNat - 48)) 0 * Nat.pow 10 (3 - ds.length)
      if whole + n ≤ 1000 then some (whole + n) else none
  match s.toList with
  -- No blanks may stand around the sign.
  | q :: '=' :: d :: rest =>
    if q ≠ 'q' ∧ q ≠ 'Q' then none
    else
      let whole? := if d = '0' then some 0 else if d = '1' then some 1000 else none
      match whole?, rest with
      | some n, [] => some n
      | some n, '.' :: ds => places n ds
      | _, _ => none
  | _ => none

/-- An accepted encoding with its weight; unknown ones and those with a bad weight do not count. -/
def accepted? (s : String) : Option (Nat × Encoding) :=
  let cs := s.toList
  let name := cs.takeWhile (· != ';')
  match Encoding.ofName? (Text.trim (String.ofList name)) with
  | none => none
  | some e =>
    match cs.drop name.length with
    | [] => some (1000, e)
    | _ :: q => (weight? (Text.trim (String.ofList q))).map (·, e)

/-- The better of two accepted encodings: the one of more weight, and of equal weight the preferred
    one. -/
def better (a b : Nat × Encoding) : Nat × Encoding :=
  if a.1 < b.1 || (a.1 == b.1 && a.2.rank ≤ b.2.rank) then b else a

/-- Whether the best encoding a client accepts is the compressed one. -/
def prefersGzip (r : Request) : Bool :=
  let offers := (r.values "accept-encoding").filterMap visible?
    |>.flatMap (fun v => v.splitOn ",") |>.filterMap accepted? |>.filter (fun o => 0 < o.1)
  match offers with
  | [] => false
  | o :: rest => (rest.foldl better o).2 == .gzip

/-! ## Origins -/

/-- Which origins may read answers. -/
inductive Origins where
  | any
  | listed (origins : List Bytes)

/-- The origins of a list of entries: every one if an entry is `*`; entries that no header can
    carry are dropped. -/
def Origins.ofList (entries : List String) : Origins :=
  if entries.contains "*" then .any
  else .listed ((entries.map utf8).filter fun v => v.all isFieldOctet)

/-- The origin that an answer allows. -/
def Origins.allowed? (o : Origins) (r : Request) : Option Bytes :=
  match o with
  | .any => some (utf8 "*")
  | .listed origins => (r.value? "origin").filter origins.contains

end Http

end Gateway
