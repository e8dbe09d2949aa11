import Gateway.Calendar
import Gateway.Program

/-!
# The console

The program has no sockets of its own. Requests come to it as lines of text, each an object with a
method, a path, headers and a body, and each answer leaves it as one line, an object with a status,
headers and a body. Its log is lines too, for people or for programs. What stands here is how these
lines are read and written; that they are read and written at all is left to the program.

A line that is no such object makes no request, and is answered like a request that HTTP cannot
carry.

## Main definitions

* `Console.request`: The request that a line stands for.
* `Console.answer`: The line of an answer.
* `LogLine.write`: A line of the log.
-/

namespace Gateway

open Http

namespace Console

/-- The text of a member of an object; nothing where there is no such text. -/
def text (v : Json) (key : String) : String :=
  match v.field? key with
  | some (.string s) => s
  | _ => ""

/-- The headers of a request: pairs of a name and a value. -/
def headers (v : Json) : List (String × Bytes) :=
  match v.field? "headers" with
  | some (.array items) => items.filterMap fun item =>
    match item with
    | .array [.string name, .string value] => some (name, Utf8.encode value)
    | _ => none
  | _ => []

/-- The request that a line stands for. -/
def request (line : Bytes) : Except RequestFault Http.Request :=
  match Json.parse line with
  | .error _ => .error .line
  | .ok v => Http.Request.build (text v "method") (text v "path") (headers v)
      (Utf8.encode (text v "body"))

/-- The text of what a response carries. -/
def bodyText : Content → String
  | .nothing => ""
  | .json v => v.text
  | .plain s => s
  | .exposition lines => "".intercalate (lines.map (· ++ "\n"))

/-- Why there is no response, as a value. -/
def failure (message : String) : Json :=
  .object [("error", .string message)]

/-- What comes of a request, as a value. -/
def answer : Upshot → Json
  | .response r => .object
    [("status", .ofNat r.status),
      ("headers", .array (r.headers.map fun (k, v) =>
        .array [.string k, .string (Utf8.decodeLossy v)])),
      ("body", .string (bodyText r.content))]
  | .unsendable .line => failure "bad request line"
  | .unsendable .header => failure "bad request header"
  | .refused => failure "connection refused"
  | _ => .null

end Console

namespace LogLine

/-- The members of a line besides the message. -/
def about (l : LogLine) : List (String × String) :=
  (l.backend.map fun b => ("backend", b)).toList
    ++ (l.address.map fun a => ("address", a)).toList

/-- A line written at a moment, in milliseconds since 1970. -/
def write (format : LogFormat) (moment : Nat) (l : LogLine) : String :=
  match format with
  | .pretty => " ".intercalate
    ([Calendar.stamp moment, l.level.name, l.message]
      ++ l.about.map fun (k, v) => k ++ "=" ++ v)
  | .json => (Json.object
    [("timestamp", .string (Calendar.stamp moment)), ("level", .string l.level.name),
      ("fields", .object (("message", .string l.message)
        :: l.about.map fun (k, v) => (k, .string v)))]).text

end LogLine

end Gateway
