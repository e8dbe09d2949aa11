import Gateway.Call

/-!
# Connections

One connection to a backend is shared by all calls to it. Each call waits under an id of its own,
and the replies that come in, in whatever order, are told apart by their ids. A reply that is not
final may bring a response, which is remembered; the final one settles the call with its error,
its own response, the one remembered last, or, if there was none at all, with the lack of it.
Replies that nobody waits for are dropped, and so is whatever is no reply.

A connection ends once. When the stream ends, or something arrives that cannot be decoded, the
connection is marked as closed first and then every call that still waits is failed; nothing that
arrives later is looked at. A write that fails marks the connection too, but leaves it to the
reader to fail the others. A reader that breaks down does neither: the connection stays open, those
who wait go on waiting, and nothing is read any more. Calls are told of their ends as `Settled`,
each at most once, because a waiter is taken away when it is told.

What is written goes into a buffer first, and the socket takes it from there. What it has not taken
stays in the buffer, in front of what is written next.

The operations come in the grain in which callers, the reader and whoever closes the connection
take turns: inserting and taking away a waiter, reading and setting the mark, failing one waiter.

## Main definitions

* `Waiter`, `Connection`: A call that waits, and a connection with those that wait on it.
* `Connection.expect`, `Connection.forget`: A call begins and ceases to wait.
* `Connection.accept`: A reply comes in.
* `Connection.fail`, `Connection.sweep`: One waiter, and every waiter, is failed.
* `Connection.finish`, `Connection.halt`: The reader ends, and breaks down.
* `Connection.receive`: Octets come in.
* `Connection.put`, `Connection.flush`: Octets are to go out, and go out.
-/

namespace Gateway

/-- A call that waits for its final reply. -/
structure Waiter where
  id : String
  -- The response of the latest reply that was not final and had one.
  last : Option Json

/-- How the call under an id ended. -/
structure Settled where
  id : String
  result : CallResult

/-- A connection to a backend. -/
structure Connection where
  waiters : List Waiter := []
  -- Whether new calls may use the connection.
  isOpen : Bool := true
  -- Whether what comes in is still read.
  isRead : Bool := true
  -- What came in and is no whole frame yet.
  inbox : Bytes := []
  -- What is to go out and was not taken by the socket yet.
  outbox : Bytes := []

namespace Connection

/-- A connection that was just made. -/
def fresh : Connection := {}

/-- Whether a call waits under an id. -/
def awaits (c : Connection) (id : String) : Bool :=
  c.waiters.any fun w => w.id == id

/-- The call under an id ceases to wait and is told nothing. -/
def forget (c : Connection) (id : String) : Connection :=
  { c with waiters := c.waiters.filter fun w => w.id != id }

/-- A call begins to wait under an id. -/
def expect (c : Connection) (id : String) : Connection :=
  -- A call that waits under the id already is not told anything any more.
  { c.forget id with waiters := (c.forget id).waiters ++ [⟨id, none⟩] }

/-- Marks the connection: no new call uses it. -/
def mark (c : Connection) : Connection :=
  { c with isOpen := false }

/-- What a final reply makes of a call, where `last` was remembered. -/
def conclude (target : Target) (reply : Reply) (last : Option Json) : CallResult :=
  match reply.errorMessage? with
  | some message => .error (.remote target message)
  | none =>
    match reply.response.or last with
    | some v => .ok v
    | none => .error (.emptyResponse target)

/-- Remembers the response of a reply that is not final, for the call under an id. -/
def remember (c : Connection) (id : String) (response : Option Json) : Connection :=
  { c with waiters := c.waiters.map fun w =>
      if w.id == id then { w with last := response.or w.last } else w }

/-- A reply comes in. -/
def accept (target : Target) (c : Connection) (reply : Reply) : Connection × List Settled :=
  match reply.id with
  | none => (c, [])
  | some id =>
    if !reply.isFinal then (c.remember id reply.response, [])
    else match c.waiters.find? fun w => w.id == id with
      -- The caller may have given up, or the connection may have been swept meanwhile.
      | none => (c, [])
      | some w => (c.forget id, [⟨id, conclude target reply w.last⟩])

/-- A value comes in, which may be a reply. -/
def acceptValue (target : Target) (c : Connection) (v : Json) : Connection × List Settled :=
  match Reply.ofValue? v with
  | some reply => c.accept target reply
  | none => (c, [])

/-- Values come in, one after another. -/
def acceptAll (target : Target) : Connection → List Json → Connection × List Settled
  | c, [] => (c, [])
  | c, v :: rest =>
    let (c, now) := c.acceptValue target v
    let (c, later) := acceptAll target c rest
    (c, now ++ later)

/-- Fails the call under an id, if it still waits. -/
def fail (target : Target) (c : Connection) (id : String) : Connection × List Settled :=
  if c.awaits id then (c.forget id, [⟨id, .error (.connectionClosed target)⟩]) else (c, [])

/-- Fails the calls under some ids, one after another. -/
def failAll (target : Target) : Connection → List String → Connection × List Settled
  | c, [] => (c, [])
  | c, id :: rest =>
    let (c, now) := c.fail target id
    let (c, later) := failAll target c rest
    (c, now ++ later)

/-- The ids of the calls that wait. -/
def ids (c : Connection) : List String :=
  c.waiters.map Waiter.id

/-- Fails every call that waits. -/
def sweep (target : Target) (c : Connection) : Connection × List Settled :=
  c.failAll target c.ids

/-- The reader ends: the connection is marked, and then every call that waits is failed. -/
def finish (target : Target) (c : Connection) : Connection × List Settled :=
  { c.mark with isRead := false }.sweep target

/-- The reader is gone, and nobody is told. -/
def halt (c : Connection) : Connection :=
  { c with isRead := false }

/-- The reader meets what cannot be decoded, or breaks down over it. -/
def stop (target : Target) (e : FrameError) (c : Connection) : Connection × List Settled :=
  if e.isBreakdown then (c.halt, []) else c.finish target

/-- Octets come in. The frames among them are taken in order; what cannot be decoded ends the
    reader, and an ended reader takes nothing. -/
def receive (target : Target) (limit : Nat) (c : Connection) (octets : Bytes) :
    Connection × List Settled :=
  if !c.isRead then (c, [])
  else
    -- The frames before what cannot be decoded are taken all the same.
    let found := Frame.feed limit c.inbox octets
    let (c, now) := { c with inbox := found.rest }.acceptAll target found.frames
    match found.error with
    | none => (c, now)
    | some e =>
      let (c, later) := c.stop target e
      (c, now ++ later)

/-- Puts the frame of a body behind what is to go out, unless the body is longer than the limit. -/
def put (limit : Nat) (body : Bytes) (c : Connection) : Connection × Except FrameError Unit :=
  let (outbox, outcome) := Frame.put limit body c.outbox
  ({ c with outbox := outbox }, outcome)

/-- The socket takes so many octets of what is to go out. -/
def flush (count : Nat) (c : Connection) : Connection :=
  { c with outbox := c.outbox.drop count }

end Connection

end Gateway
