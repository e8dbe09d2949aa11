import Gateway.Client
import Gateway.Permits
import Gateway.Registry
import Gateway.Settings
import Gateway.Text.Uuid
import Gateway.Upshot

/-!
# Exchanges

The clients of all targets against backends that are played step by step. What a backend sees on
its sockets is told after each step, and it answers with any octets on the newest of them, or
drops them all. Each backend has two clients: calls that are routed share one of them and the
permits and have a time limit, and calls that are made directly share the other and have none.

Within a step everything that can happen does. A call that finds an open connection writes its
packet before the next call of the step begins; one that has to connect first holds its permit
meanwhile and goes on after all calls of the step have begun. Time passes only where a step says
so.

## Main definitions

* `Side`, `Node`: The two clients of a backend, and a backend with them.
* `Sighting`: What a backend sees.
* `Exchange`: The clients, the backends and the calls under way.
* `Exchange.begin`: Begins calls.
* `Exchange.write`, `Exchange.drop`: What a backend does.
* `Exchange.takeSightings`, `Exchange.takeEnded`: What is told after a step.
-/

namespace Gateway

/-- Which client of a backend a call goes through. -/
inductive Side where
  | direct
  | routed
  deriving DecidableEq, Repr

/-- A socket as the backend has it. -/
structure Socket where
  side : Side
  -- Whether the backend dropped it.
  dropped : Bool := false
  -- Whether the client let it go.
  gone : Bool := false
  deriving DecidableEq, Repr

/-- A backend and its clients. -/
structure Node where
  target : Target
  -- Whether anything listens there.
  listens : Bool
  direct : Client
  routed : Client
  sockets : List Socket := []

/-- What a backend sees on a socket. -/
inductive Seen where
  | opened
  | frame (octets : Bytes)
  | closed

/-- What a backend sees, and where. -/
structure Sighting where
  -- The number of the backend.
  node : Nat
  socket : Nat
  seen : Seen

/-- What is asked of a backend. -/
structure Dispatch where
  node : Nat
  side : Side
  kind : CallKind
  -- The name under which its id is spoken of.
  label : String
  timeout : Option Nat

/-- A call that was begun. -/
structure Ongoing where
  -- The number of the job it belongs to.
  job : Nat
  what : Dispatch
  id : String
  due : Option Nat
  holdsPermit : Bool := false
  -- Whether the backend got its packet.
  isHeard : Bool := false
  result : Option CallResult := none

/-- Calls that are made together. -/
structure Job where
  name : String
  purpose : Purpose
  isCancelled : Bool := false
  -- Whether its end has been told.
  isTold : Bool := false

/-- The clients, the backends and the calls under way. -/
structure Exchange where
  -- Backends, jobs and calls are spoken of by number, which is their place here.
  nodes : List Node
  permits : Permits
  defaultTimeout : Nat
  -- What the operating system says when nothing listens.
  refusal : String
  -- The time, in milliseconds.
  now : Nat := 0
  jobs : List Job := []
  calls : List Ongoing := []
  -- What the backends saw since that was last told, latest first.
  sightings : List Sighting := []

namespace Node

/-- A backend that was not connected to yet. -/
def new (target : Target) (listens : Bool) (limit : Nat) : Node :=
  ⟨target, listens, .new target limit, .new target limit, []⟩

/-- The client of a side. -/
def client (n : Node) : Side → Client
  | .direct => n.direct
  | .routed => n.routed

/-- The backend with another client at a side. -/
def withClient (n : Node) (side : Side) (c : Client) : Node :=
  match side with
  | .direct => { n with direct := c }
  | .routed => { n with routed := c }

/-- The backend with a socket changed. -/
def updateSocket (n : Node) (socket : Nat) (f : Socket → Socket) : Node :=
  { n with sockets := n.sockets.modify socket f }

/-- The number of the newest socket that neither end has closed. -/
def newest? (n : Node) : Option (Nat × Side) :=
  (n.sockets.zipIdx.reverse.find? fun (s, _) => !s.dropped && !s.gone).map fun (s, i) => (i, s.side)

end Node

namespace Exchange

/-- The exchange with backends for the given targets, each of which listens or does not. -/
def ofTargets (targets : List (Target × Bool)) (settings : CallSettings) (refusal : String) :
    Except WiringError Exchange :=
  let endpoints := targets.map fun (t, _) => (⟨t, Registry.defaultHost, t.defaultPort⟩ : Endpoint)
  (Registry.ofList endpoints).map fun _ =>
    { nodes := targets.map fun (t, listens) => .new t listens settings.maxFrame
      permits := .full settings.maxCalls
      defaultTimeout := settings.callTimeout
      refusal := refusal }

/-- The exchange with a backend changed. -/
def updateNode (x : Exchange) (node : Nat) (f : Node → Node) : Exchange :=
  { x with nodes := x.nodes.modify node f }

/-- The exchange with a call changed. -/
def updateCall (x : Exchange) (call : Nat) (f : Ongoing → Ongoing) : Exchange :=
  { x with calls := x.calls.modify call f }

/-- Notes what a backend sees. -/
def note (x : Exchange) (node socket : Nat) (seen : Seen) : Exchange :=
  { x with sightings := ⟨node, socket, seen⟩ :: x.sightings }

/-- Ends a call, unless it has ended, and gives its permit back. -/
def settle (x : Exchange) (call : Nat) (result : CallResult) : Exchange :=
  match x.calls[call]? with
  | none => x
  | some o =>
    -- The first end of a call counts; what comes later changes nothing.
    if o.result.isSome then x
    else
      let x := x.updateCall call fun o => { o with result := some result, holdsPermit := false }
      if o.holdsPermit then { x with permits := x.permits.release } else x

/-- The number of the call under an id. -/
def callOf? (x : Exchange) (id : String) : Option Nat :=
  x.calls.findIdx? fun o => o.id == id

/-- The socket of a given number of a backend. -/
def socket? (x : Exchange) (node socket : Nat) : Option Socket :=
  x.nodes[node]?.bind fun n => n.sockets[socket]?

/-- Does what a client of a backend does. -/
def perform (x : Exchange) (node : Nat) (side : Side) : Effect → Exchange
  | .opened socket =>
    (x.updateNode node fun n => { n with sockets := n.sockets ++ [⟨side, false, false⟩] }).note node
      socket .opened
  | .flushed socket octets => x.note node socket (.frame octets)
  | .wrote socket frame => x.note node socket (.frame frame)
  | .closed socket =>
    -- A backend that has dropped the socket does not see it close.
    let isKnown := (x.socket? node socket).any fun s => !s.dropped
    let x := x.updateNode node fun n => n.updateSocket socket fun s => { s with gone := true }
    if isKnown then x.note node socket .closed else x
  | .settled s =>
    match x.callOf? s.id with
    | some call => x.settle call s.result
    | none => x

/-- Does what a client of a backend does, in order, and puts the client in its place. -/
def apply (x : Exchange) (node : Nat) (side : Side) (c : Client) (effects : List Effect) :
    Exchange :=
  effects.foldl (fun x e => x.perform node side e) (x.updateNode node fun n => n.withClient side c)

/-- What the network does to a call to a backend. -/
def network (x : Exchange) (n : Node) : Network :=
  ⟨if n.listens then .connected n.sockets.length else .failed .connectionRefused x.refusal, none⟩

/-- Hands a call to its client. -/
def hand (x : Exchange) (call : Nat) (pattern : String) (payload : Json) : Exchange :=
  match x.calls[call]? with
  | none => x
  | some o =>
    match x.nodes[o.what.node]? with
    | none => x
    | some n =>
      let client := n.client o.what.side
      match o.what.kind with
      | .event =>
        let (client, effects, result) := client.emit (x.network n) pattern payload
        (x.apply o.what.node o.what.side client effects).settle call result
      | .request =>
        let (client, effects, result) := client.send (x.network n) o.id pattern payload
        let x := x.apply o.what.node o.what.side client effects
        match result with
        | some result => x.settle call result
        | none => x.updateCall call fun o => { o with isHeard := true }

/-- Whether the client of a call has an open connection. -/
def isReady (x : Exchange) (what : Dispatch) : Bool :=
  x.nodes[what.node]?.any fun n => (n.client what.side).ready?.isSome

/-- Admits a call: a routed one needs a permit. -/
def admission (x : Exchange) (job : Nat) (what : Dispatch) : Exchange × Bool :=
  let o : Ongoing :=
    { job := job
      what := what
      id := Uuid.numbered x.calls.length
      due := what.timeout.map (x.now + ·) }
  match what.side with
  | .direct => ({ x with calls := x.calls ++ [o] }, true)
  | .routed =>
    match x.permits.acquire? with
    | some permits =>
      ({ x with permits := permits, calls := x.calls ++ [{ o with holdsPermit := true }] }, true)
    | none =>
      ({ x with calls := x.calls ++ [{ o with result := some (.error .overloaded) }] }, false)

/-- Begins calls one after another, and tells which of them have to connect first. -/
def beginAll (job : Nat) (pattern : String) (payload : Json) :
    Exchange → List Dispatch → Exchange × List Nat
  | x, [] => (x, [])
  | x, what :: rest =>
    let call := x.calls.length
    let (x, isAdmitted) := x.admission job what
    -- Where a connection is open the packet is written at once; who has to connect comes later.
    let goesOn := isAdmitted && x.isReady what
    let (x, later) := beginAll job pattern payload
      (if goesOn then x.hand call pattern payload else x) rest
    (x, if isAdmitted && !goesOn then call :: later else later)

/-- The client of a backend is told that the caller of a call gave up. -/
def cancel (x : Exchange) (o : Ongoing) : Exchange :=
  match x.nodes[o.what.node]? with
  | none => x
  | some n =>
    let (client, effects) := (n.client o.what.side).cancel o.id
    x.apply o.what.node o.what.side client effects

/-- The calls that have not ended and fulfil a condition, with their numbers. -/
def unended (x : Exchange) (p : Ongoing → Bool) : List (Nat × Ongoing) :=
  (x.calls.zipIdx.filter fun (o, _) => o.result.isNone && p o).map fun (o, i) => (i, o)

/-- The target of a call. -/
def targetOf (x : Exchange) (what : Dispatch) : Target :=
  (x.nodes[what.node]?.map Node.target).getD .notification

/-- Ends the calls whose time is over. -/
def expire (x : Exchange) : Exchange :=
  (x.unended fun o => o.due.any (· ≤ x.now)).foldl (fun x (call, o) =>
    -- The caller gives up first, so that nothing more can come over the connection.
    (x.cancel o).settle call
      (.error (.timeout (x.targetOf o.what) (o.what.timeout.getD 0)))) x

/-- Begins a job. -/
def begin (x : Exchange) (name : String) (purpose : Purpose) (what : List Dispatch)
    (pattern : String) (payload : Json) : Exchange :=
  let (x, later) := beginAll x.jobs.length pattern payload
    { x with jobs := x.jobs ++ [{ name := name, purpose := purpose }] } what
  (later.foldl (fun x call => x.hand call pattern payload) x).expire

/-- One call to a backend. -/
def one (x : Exchange) (name : String) (side : Side) (kind : CallKind) (node : Nat)
    (pattern : String) (payload : Json) (timeout : Option Nat) : Exchange :=
  let timeout := match side with
    | .direct => none
    | .routed => some (timeout.getD x.defaultTimeout)
  x.begin name .single [⟨node, side, kind, name, timeout⟩] pattern payload

/-- A routed call to each backend. -/
def each (x : Exchange) (name : String) (kind : CallKind) (timeout : Nat) : List Dispatch :=
  x.nodes.zipIdx.map fun (n, i) => ⟨i, .routed, kind, name ++ ":" ++ n.target.name, some timeout⟩

/-- An event to all backends. -/
def broadcast (x : Exchange) (name pattern : String) (payload : Json) (timeout : Option Nat) :
    Exchange :=
  x.begin name .broadcast (x.each name .event (timeout.getD x.defaultTimeout)) pattern payload

/-- A probe of all backends. -/
def probe (x : Exchange) (name : String) (timeout : Nat) : Exchange :=
  x.begin name .probe (x.each name .request timeout) HealthReport.pattern HealthReport.payload

/-- A backend writes octets on its newest socket, if it has one. -/
def write (x : Exchange) (node : Nat) (octets : Bytes) : Exchange :=
  match x.nodes[node]? with
  | none => x
  | some n =>
    match n.newest? with
    | none => x
    | some (socket, side) =>
      let (client, effects) := (n.client side).receive socket octets
      x.apply node side client effects

/-- A backend drops all its sockets. -/
def drop (x : Exchange) (node : Nat) : Exchange :=
  match x.nodes[node]? with
  | none => x
  | some n =>
    let alive := n.sockets.zipIdx.filter fun (s, _) => !s.dropped
    let x := x.updateNode node fun n =>
      { n with sockets := n.sockets.map fun s => { s with dropped := true } }
    alive.foldl (fun x (s, i) =>
      match x.nodes[node]? with
      | none => x
      | some n =>
        let (client, effects) := (n.client s.side).finish i
        x.apply node s.side client effects) x

/-- Closes a client of a backend. -/
def close (x : Exchange) (node : Nat) (side : Side) : Exchange :=
  match x.nodes[node]? with
  | none => x
  | some n =>
    let (client, effects) := (n.client side).close
    x.apply node side client effects

/-- Closes the clients of all routed calls, in reverse order. -/
def shutdown (x : Exchange) : Exchange :=
  (List.range x.nodes.length).reverse.foldl (fun x node => x.close node .routed) x

/-- Lets time pass. -/
def wait (x : Exchange) (ms : Nat) : Exchange :=
  { x with now := x.now + ms }.expire

/-- Gives up the jobs of a given name. -/
def abort (x : Exchange) (name : String) : Exchange :=
  let isMeant (job : Nat) : Bool := x.jobs[job]?.any fun j => j.name == name && !j.isTold
  let x := (x.unended fun o => isMeant o.job).foldl (fun x (call, o) =>
    (x.cancel o).settle call (.error (.connectionClosed (x.targetOf o.what)))) x
  { x with jobs := x.jobs.map fun j =>
      if j.name == name && !j.isTold then { j with isCancelled := true } else j }

/-- What became of a job, if it has ended. -/
def outcome? (x : Exchange) (job : Nat) (j : Job) : Option Upshot :=
  if j.isCancelled then some .cancelled
  else
    let calls := x.calls.filter fun o => o.job == job
    (calls.mapM fun (o : Ongoing) => o.result.map fun r => (⟨x.targetOf o.what, r⟩ : Outcome)).map
      j.purpose.conclude

/-- The jobs that ended since that was last told, and what became of them. -/
def takeEnded (x : Exchange) : Exchange × List (String × Upshot) :=
  let ended := x.jobs.zipIdx.filterMap fun (j, i) =>
    if j.isTold then none else (x.outcome? i j).map (i, j.name, ·)
  let numbers := ended.map Prod.fst
  ({ x with jobs := x.jobs.zipIdx.map fun (j, i) =>
      if numbers.contains i then { j with isTold := true } else j },
    ended.map Prod.snd)

/-- The jobs whose end has not been told, in the order in which they began. -/
def unfinished (x : Exchange) : List String :=
  (x.jobs.filter fun j => !j.isTold).map Job.name

/-- What the backends saw since that was last told, by backend and socket. -/
def takeSightings (x : Exchange) : Exchange × List Sighting :=
  ({ x with sightings := [] },
    x.sightings.reverse.mergeSort fun a b =>
      a.node < b.node || (a.node == b.node && a.socket ≤ b.socket))

/-- The id of the latest call of a given label that the backend got. -/
def idOf? (x : Exchange) (label : String) : Option String :=
  (x.calls.reverse.find? fun o => o.what.label == label && o.isHeard).map Ongoing.id

end Exchange

end Gateway
