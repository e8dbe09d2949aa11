import Gateway.Http.Locator
import Gateway.Json.Record

/-!
# HTTP messages

A request is a method, a path, headers and a body; a response is a status, headers and content.
Names of headers are compared without regard to case, so they are kept in lower case. Values of
headers are octets, as nothing makes a client send text and some answers return what it sent.

## Main definitions

* `Http.Request`, `Http.Response`, `Http.Content`: The messages.
* `Http.Request.build`: The request of given parts, if HTTP can carry them.
-/

namespace Gateway

namespace Http

/-- Why given parts make no request. -/
inductive RequestFault where
  -- The method, the path or the name of a header cannot be carried.
  | line
  -- The value of a header cannot be carried.
  | header
  deriving DecidableEq, Repr

/-- A request. -/
structure Request where
  method : String
  path : String
  -- The headers in order, names in lower case.
  headers : List (String × Bytes)
  body : Bytes

/-- Whether a character may stand in a method or in the name of a header. -/
def isToken (c : Char) : Bool :=
  c.isAlphanum || "!#$%&'*+-.^_`|~".toList.contains c

/-- Whether an octet may stand in the value of a header. -/
def isFieldOctet (b : UInt8) : Bool :=
  (32 ≤ b.toNat && b != 127) || b == 9

/-- A text in lower case, ASCII letters only. -/
def lowerCase (s : String) : String :=
  s.map Char.toLower

/-- Whether a text may be a method or the name of a header. -/
def isName (s : String) : Bool :=
  !s.isEmpty && s.all isToken

/-- The request of the given parts, if HTTP can carry them. A value that it cannot carry is
    reported first. -/
def Request.build (method locator : String) (headers : List (String × Bytes)) (body : Bytes) :
    Except RequestFault Request :=
  if !headers.all fun h => h.2.all isFieldOctet then .error .header
  else if !isName method || !headers.all fun h => isName h.1 then .error .line
  else match Locator.path? locator with
    | none => .error .line
    | some path => .ok ⟨method, path, headers.map fun (k, v) => (lowerCase k, v), body⟩

namespace Request

/-- The values of a header, in order. -/
def values (r : Request) (name : String) : List Bytes :=
  (r.headers.filter fun h => h.1 == name).map Prod.snd

/-- The first value of a header. -/
def value? (r : Request) (name : String) : Option Bytes :=
  (r.values name).head?

/-- The request as it arrives over a connection, where spaces and tabulators around the values of
    headers are lost. -/
def arrived (r : Request) : Request :=
  let strip (v : Bytes) : Bytes := v.dropWhile fun b => b == 32 || b == 9
  { r with headers := r.headers.map fun (k, v) => (k, (strip (strip v).reverse).reverse) }

/-- Whether only the headers of the answer are wanted. -/
def isHead (r : Request) : Bool :=
  r.method == "HEAD"

end Request

/-- The text of a header value, if it is visible ASCII with blanks and tabulators. -/
def visible? (v : Bytes) : Option String :=
  if v.all fun b => (32 ≤ b.toNat && b.toNat < 127) || b == 9 then
    some (String.ofList (v.map fun b => Char.ofNat b.toNat))
  else none

/-- What a response carries. -/
inductive Content where
  | nothing
  | json (v : Json)
  | plain (s : String)
  -- Lines for scrapers of metrics.
  | exposition (lines : List String)

/-- How many octets the content takes. -/
def Content.size : Content → Nat
  | .nothing => 0
  | .json v => v.write.length
  | .plain s => s.utf8ByteSize
  | .exposition lines => lines.foldl (fun n l => n + l.utf8ByteSize + 1) 0

/-- A response. -/
structure Response where
  status : Nat
  headers : List (String × Bytes) := []
  content : Content := .nothing

namespace Response

/-- A response without content. -/
def bare (status : Nat) : Response :=
  { status := status }

/-- A response with content of a type. -/
def ofContent (status : Nat) (type : String) (content : Content) : Response :=
  ⟨status, [("content-type", utf8 type)], content⟩

/-- A response with a value. -/
def ofJson (status : Nat) (v : Json) : Response :=
  ofContent status "application/json" (.json v)

/-- A response with plain text. -/
def ofText (status : Nat) (s : String) : Response :=
  ofContent status "text/plain; charset=utf-8" (.plain s)

/-- A response with more headers. -/
def withHeaders (r : Response) (headers : List (String × Bytes)) : Response :=
  { r with headers := r.headers ++ headers }

/-- A response with one more header, whose value is a text. -/
def withHeader (r : Response) (name value : String) : Response :=
  r.withHeaders [(name, utf8 value)]

/-- A response without its content, for who wants the headers only. -/
def headOnly (r : Response) : Response :=
  { r with content := .nothing }

end Response

end Http

end Gateway
