import Gateway.Connection

/-!
# Clients

The client of one target. It has a slot for the connection in use. A call takes the connection in
the slot if that is open, and otherwise makes a new one; so calls share a connection as long as it
is open, and the first call after its end makes the next. When making one fails, the call fails
and the slot stays as it was.

A connection that has left the slot, or is closed in it, may still have calls waiting on it. What
comes in on it settles those and no others, since every connection has waiters of its own. It is
let go when it is not in the slot and nobody waits on it any more.

What the network does is told to each operation: a number for the socket that is made, or why none
is, and whether a write fails. A write that fails leaves what the socket did not take in the buffer
of the connection. What a client does to the network and to its callers is given back as a list of
effects.

## Main definitions

* `Dial`, `Network`: What the network does.
* `Effect`: What a client does.
* `Client`: A client with its connections.
* `Client.send`, `Client.emit`, `Client.close`: What callers ask for.
* `Client.cancel`: A caller gives up.
* `Client.receive`, `Client.finish`: What comes from the network.
-/

namespace Gateway

/-- What comes of an attempt to connect. -/
inductive Dial where
  -- A connection over the socket of a given number.
  | connected (socket : Nat)
  | failed (kind : IoKind) (text : String)

/-- What the network does during a call. -/
structure Network where
  dial : Dial
  -- Why a write fails, if it does.
  writeFault : Option (IoKind × String) := none

/-- What a client does. -/
inductive Effect where
  | opened (socket : Nat)
  -- What was left in the buffer by those who wrote before.
  | flushed (socket : Nat) (octets : Bytes)
  | wrote (socket : Nat) (frame : Bytes)
  | closed (socket : Nat)
  | settled (call : Settled)

/-- The client of a target. -/
structure Client where
  target : Target
  -- The longest body of a frame.
  limit : Nat
  -- The socket of the connection in use.
  slot : Option Nat := none
  -- The connections that were not let go, by socket.
  connections : List (Nat × Connection) := []

namespace Client

/-- A client that has not connected yet. -/
def new (target : Target) (limit : Nat) : Client :=
  { target := target, limit := limit }

/-- The connection over a socket. -/
def connection? (c : Client) (socket : Nat) : Option Connection :=
  (c.connections.find? fun e => e.1 == socket).map Prod.snd

/-- The client with the connection over a socket changed. -/
def update (c : Client) (socket : Nat) (f : Connection → Connection) : Client :=
  { c with connections := c.connections.map fun e => if e.1 == socket then (e.1, f e.2) else e }

/-- The socket in the slot, if its connection is open. -/
def ready? (c : Client) : Option Nat :=
  c.slot.bind fun socket =>
    match c.connection? socket with
    | some k => if k.isOpen then some socket else none
    | none => none

/-- The socket to use for a call: the one in the slot if its connection is open, and else a new
    one. -/
def acquire (c : Client) (dial : Dial) : Client × List Effect × Except CallError Nat :=
  match c.ready? with
  | some socket => (c, [], .ok socket)
  | none =>
    -- What was in the slot, if anything, is closed; those who wait on it keep it.
    match dial with
    | .connected socket =>
      ({ c with slot := some socket, connections := c.connections ++ [(socket, .fresh)] },
        [.opened socket], .ok socket)
    | .failed kind text => (c, [], .error (.transport c.target kind text))

/-- Lets every connection go that is not in the slot and that nobody waits on. -/
def letGo (c : Client) : Client × List Effect :=
  let isIdle (e : Nat × Connection) : Bool := c.slot != some e.1 && e.2.waiters.isEmpty
  ({ c with connections := c.connections.filter fun e => !isIdle e },
    (c.connections.filter isIdle).map fun e => .closed e.1)

/-- What an operation did, once idle connections are let go. -/
def tidy {α : Type} (c : Client) (effects : List Effect) (a : α) : Client × List Effect × α :=
  let (c, closed) := c.letGo
  (c, effects ++ closed, a)

/-- What is to go out over a socket and was not taken by it yet. -/
def outbox (c : Client) (socket : Nat) : Bytes :=
  ((c.connection? socket).getD .fresh).outbox

/-- Puts a packet behind what is to go out over a socket, unless it is too long. -/
def put (c : Client) (socket : Nat) (packet : Request) : Client × Except CallError Unit :=
  let fill := Connection.put c.limit packet.toText
  (c.update socket fun k => (fill k).1,
    (fill ((c.connection? socket).getD .fresh)).2.mapError (.codec c.target))

/-- What goes out before a packet, if anything was left. -/
def backlog (c : Client) (socket : Nat) : List Effect :=
  if (c.outbox socket).isEmpty then [] else [.flushed socket (c.outbox socket)]

/-- Writes a packet. One that is too long is refused before anything of it is put into the buffer; a
    write that fails marks the connection. -/
def write (c : Client) (network : Network) (socket : Nat) (packet : Request) :
    Client × List Effect × Except CallError Unit :=
  match c.put socket packet with
  | (filled, .error e) => (filled, [], .error e)
  | (filled, .ok ()) =>
    match network.writeFault with
    | some (kind, text) => (filled.update socket .mark, [], .error (.transport c.target kind text))
    | none =>
      (filled.update socket fun k => k.flush k.outbox.length,
        c.backlog socket ++ [.wrote socket (Frame.frame packet.toText)], .ok ())

/-- A call that waits for its reply under an id. Gives how it ended if it did already. -/
def send (c : Client) (network : Network) (id pattern : String) (payload : Json) :
    Client × List Effect × Option CallResult :=
  match c.acquire network.dial with
  | (c, effects, .error e) => c.tidy effects (some (.error e))
  | (c, opened, .ok socket) =>
    -- The waiter is in before anything is written, so that no reply can come too early for it.
    let c := c.update socket (·.expect id)
    match c.write network socket (.call id pattern payload) with
    | (c, wrote, .ok ()) => c.tidy (opened ++ wrote) none
    | (c, wrote, .error e) =>
      (c.update socket (·.forget id)).tidy (opened ++ wrote) (some (.error e))

/-- A call that waits for nothing but that it is written. -/
def emit (c : Client) (network : Network) (pattern : String) (payload : Json) :
    Client × List Effect × CallResult :=
  match c.acquire network.dial with
  | (c, effects, .error e) => c.tidy effects (.error e)
  | (c, opened, .ok socket) =>
    match c.write network socket (.event pattern payload) with
    | (c, wrote, .ok ()) => c.tidy (opened ++ wrote) (.ok .null)
    | (c, wrote, .error e) => c.tidy (opened ++ wrote) (.error e)

/-- Does something to the connection over a socket that settles calls. -/
def onConnection (c : Client) (socket : Nat) (f : Connection → Connection × List Settled) :
    Client × List Effect :=
  match c.connection? socket with
  | none => (c, [])
  | some k =>
    let (k, settled) := f k
    let (c, closed) := (c.update socket fun _ => k).letGo
    (c, settled.map .settled ++ closed)

/-- Closes the connection in the slot, if there is one, and fails the calls that wait on it. -/
def close (c : Client) : Client × List Effect :=
  match c.slot with
  | none => (c, [])
  -- The slot is empty before the connection is touched.
  | some socket => { c with slot := none }.onConnection socket fun k => k.mark.sweep c.target

/-- The caller of the call under an id gives up. -/
def cancel (c : Client) (id : String) : Client × List Effect :=
  ({ c with connections := c.connections.map fun (n, k) => (n, k.forget id) } : Client).letGo

/-- Octets come in over a socket. -/
def receive (c : Client) (socket : Nat) (octets : Bytes) : Client × List Effect :=
  c.onConnection socket fun k => k.receive c.target c.limit octets

/-- The stream of a socket ends. -/
def finish (c : Client) (socket : Nat) : Client × List Effect :=
  c.onConnection socket fun k => if k.isRead then k.finish c.target else (k, [])

end Client

end Gateway
