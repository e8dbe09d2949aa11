import Gateway.Json.Record

/-!
# Packets

What the gateway and a backend say to each other. A request carries a correlation id and expects
replies under the same id; an event carries none and expects nothing. A backend may reply several
times, and the reply that is final ends the exchange: one that is marked so, or that reports an
error.

In a reply a response that is present and `null` differs from an absent one, while an error that is
`null` is no error.

## Main definitions

* `Request`, `Reply`: The packets.
* `Request.ofText`, `Request.ofValue?`, `Request.toText`: Reading and writing requests; likewise
  for replies.
* `Reply.isFinal`, `Reply.errorMessage?`: What a reply means for the call it belongs to.
-/

namespace Gateway

/-- A packet to a backend. -/
structure Request where
  -- The correlation id; an event has none.
  id : Option String
  pattern : String
  data : Json

namespace Request

/-- A packet that expects a reply under an id. -/
def call (id pattern : String) (data : Json) : Request :=
  ⟨some id, pattern, data⟩

/-- A packet that expects no reply. -/
def event (pattern : String) (data : Json) : Request :=
  ⟨none, pattern, data⟩

/-- Whether a packet expects no reply. -/
def isEvent (p : Request) : Bool :=
  p.id.isNone

/-- The members of a packet, an absent id left out. -/
def members (p : Request) : List (String × Json) :=
  (match p.id with
    | some id => [("id", Json.string id)]
    | none => [])
    ++ [("pattern", .string p.pattern), ("data", p.data)]

/-- The compact text of a packet, its fields in their declared order. -/
def toText (p : Request) : Bytes :=
  Json.write (.object p.members)

/-- A packet while it is being read. -/
structure Draft where
  id : Option (Option String) := none
  pattern : Option String := none
  data : Option Json := none

/-- The fields of a packet. -/
def record : Json.Record Draft Request where
  fields := [
    .of "id" .optionalText (·.id) fun d v => { d with id := some v },
    .of "pattern" .text (·.pattern) fun d v => { d with pattern := some v },
    .of "data" .any (·.data) fun d v => { d with data := some v }]
  empty := {}
  build d := do
    let id ← d.id
    let pattern ← d.pattern
    let data ← d.data
    pure ⟨id, pattern, data⟩

/-- Reads a packet straight from text. -/
def ofText (bs : Bytes) : Except Fault Request :=
  record.ofText bs

/-- Reads a packet from a value. -/
def ofValue? (v : Json) : Option Request :=
  record.ofValue? v

end Request

/-- A packet from a backend. -/
structure Reply where
  id : Option String
  -- The response; `null` is one.
  response : Option Json
  -- The error; `null` is none.
  err : Option Json
  -- Whether the backend says that nothing more comes.
  isDisposed : Bool

namespace Reply

/-- The final reply of a call that succeeded. -/
def disposed (id : String) (response : Json) : Reply :=
  ⟨some id, some response, none, true⟩

/-- A reply that others follow. -/
def partway (id : String) (response : Json) : Reply :=
  ⟨some id, some response, none, false⟩

/-- The final reply of a call that failed. -/
def failed (id : String) (err : Json) : Reply :=
  ⟨some id, none, some err, true⟩

/-- Whether a reply ends the exchange. -/
def isFinal (r : Reply) : Bool :=
  r.isDisposed || r.err.isSome

/-- The message in an error: the error itself when it is a string, its `message` when that is a
    string, and otherwise its text. -/
def messageOf (err : Json) : String :=
  match err with
  | .string s => s
  | _ =>
    match err.field? "message" with
    | some (.string s) => s
    | _ => err.text

/-- The message of a reply's error, if it has one. -/
def errorMessage? (r : Reply) : Option String :=
  r.err.map messageOf

/-- The members of a reply; an absent id is `null`, an absent response or error is left out. -/
def members (r : Reply) : List (String × Json) :=
  [("id", (r.id.map Json.string).getD .null)]
    ++ (r.response.map fun v => ("response", v)).toList
    ++ (r.err.map fun v => ("err", v)).toList
    ++ [("isDisposed", .bool r.isDisposed)]

/-- The compact text of a reply, its fields in their declared order. -/
def toText (r : Reply) : Bytes :=
  Json.write (.object r.members)

/-- A reply while it is being read. -/
structure Draft where
  id : Option (Option String) := none
  response : Option (Option Json) := none
  err : Option (Option Json) := none
  isDisposed : Option Bool := none

/-- The fields of a reply. -/
def record : Json.Record Draft Reply where
  fields := [
    .of "id" .optionalText (·.id) fun d v => { d with id := some v },
    .of "response" .present (·.response) fun d v => { d with response := some v },
    .of "err" .optionalAny (·.err) fun d v => { d with err := some v },
    .of "isDisposed" .flag (·.isDisposed) fun d v => { d with isDisposed := some v }]
  empty := {}
  build d := do
    let id ← d.id
    let response ← d.response
    let err ← d.err
    let isDisposed ← d.isDisposed
    pure ⟨id, response, err, isDisposed⟩

/-- Reads a reply straight from text. -/
def ofText (bs : Bytes) : Except Fault Reply :=
  record.ofText bs

/-- Reads a reply from a value. -/
def ofValue? (v : Json) : Option Reply :=
  record.ofValue? v

end Reply

end Gateway
