import Gateway.Backend
import Gateway.Metrics
import Gateway.Permits
import Gateway.Registry

/-!
# The switchboard

One line for each registered target, in registry order, and one set of permits for all of them. A
call is placed on the line of its target and passes, from outside to inside, the count of calls,
the permits and the time limit, and then reaches the client, which asks the backend. What becomes
of it is known from then on: it settles when the answer comes, or at its time limit if that comes
first, and when the two fall together the answer counts. A call that has not settled yet is a
flight.

A flight ends in one of three ways. It is answered, it times out, or it is given up by whoever
placed it. Each way gives its permit back; only the first two are counted, under what the caller
gets. Calls for targets without a line reach nobody, take no permit and are not counted.

Time is not kept here: each operation is told the time. What is due is a `Timer`, which also knows
in which order timers were set, as those due together ring in that order.

## Main definitions

* `Timer`: When something is due.
* `Layers`: Which of the three a call passes.
* `Flight`: A call that has not settled.
* `Switchboard.ofRegistry`: The switchboard of a registry and its clients.
* `Switchboard.place`: Places a call.
* `Switchboard.land`: Settles a flight that is due.
* `Switchboard.abandon`: Gives a flight up.
* `Switchboard.close`: Closes every client.
-/

namespace Gateway

/-- When something is due. Of timers due at one time the one set first rings first. -/
structure Timer where
  -- The time, in milliseconds.
  due : Nat
  -- The place in the order in which timers were set.
  order : Nat
  deriving DecidableEq, Repr

/-- Whether a timer rings before another. -/
def Timer.before (a b : Timer) : Bool :=
  a.due < b.due || (a.due == b.due && a.order < b.order)

/-- The timer that rings first. -/
def Timer.first? (ts : List Timer) : Option Timer :=
  ts.foldl (fun best t =>
    match best with
    | none => some t
    | some b => if t.before b then some t else best) none

/-- What a call passes on its way to the client. -/
structure Layers where
  counted : Bool
  limited : Bool
  timed : Bool
  deriving DecidableEq, Repr

/-- Everything, as for every call that is routed. -/
def Layers.full : Layers := ⟨true, true, true⟩

/-- The client of a target. -/
structure Line where
  target : Target
  backend : Backend
  -- How many calls reached it.
  served : Nat := 0

/-- A call that has not settled. -/
structure Flight where
  context : Context
  -- The target whose client has it.
  client : Target
  -- What the backend will answer.
  answer : CallResult
  -- When the answer comes.
  reply : Timer
  limit : Option Timer
  holdsPermit : Bool
  counted : Bool

namespace Flight

/-- The error of a call that takes too long. -/
def timeoutError (f : Flight) : CallError :=
  .timeout f.context.target f.context.timeout

/-- How a flight has settled at a given time, and whether that is by its answer. -/
def outcome? (f : Flight) (now : Nat) : Option (CallResult × Bool) :=
  -- When answer and time limit are both due the answer counts.
  if f.reply.due ≤ now then some (f.answer, true)
  else match f.limit with
    | some t => if t.due ≤ now then some (.error f.timeoutError, false) else none
    | none => none

/-- The timers of a flight. -/
def timers (f : Flight) : List Timer :=
  f.reply :: f.limit.toList

end Flight

/-- What becomes of a call at once: it settles, or it is under way under a number. -/
inductive Placed where
  | settled (result : CallResult)
  | flying (flight : Nat)

/-- The clients of all targets with what they share. -/
structure Switchboard where
  -- One line for each target, in registry order.
  lines : List Line
  permits : Permits
  defaultTimeout : Nat
  metrics : Metrics := {}
  -- What was seen at the backends, latest first.
  trace : List Trace := []
  flights : List (Nat × Flight) := []
  nextCall : Nat := 1

namespace Switchboard

/-- The switchboard of lines that are known to be in order. -/
def ofLines (lines : List (Target × Backend)) (maxCalls defaultTimeout : Nat) : Switchboard where
  lines := lines.map fun (t, b) => ⟨t, b, 0⟩
  permits := .full maxCalls
  defaultTimeout := defaultTimeout

/-- The switchboard of the registered targets and their clients. -/
def ofRegistry (registered : List Target) (clients : List (Target × Backend))
    (maxCalls defaultTimeout : Nat) : Except WiringError Switchboard :=
  (Registry.wire registered clients).map fun lines => ofLines lines maxCalls defaultTimeout

/-- The targets, in registry order. -/
def targets (b : Switchboard) : List Target :=
  b.lines.map Line.target

/-- Counts a call that ended, if it is to be counted. -/
def count (b : Switchboard) (counted : Bool) (context : Context) (result : CallResult) :
    Switchboard :=
  if counted then { b with metrics := b.metrics.recordCall context.target context.kind result }
  else b

/-- Gives a permit back, if there is one to give. -/
def giveBack (b : Switchboard) (held : Bool) : Switchboard :=
  if held then { b with permits := b.permits.release } else b

/-- Writes to the trace. -/
def note (b : Switchboard) (t : Trace) : Switchboard :=
  { b with trace := t :: b.trace }

/-- Ends a flight with what it settled to. -/
def finish (b : Switchboard) (f : Flight) (result : CallResult) (answered : Bool) : Switchboard :=
  ((if answered then b.note (.finished f.client) else b).giveBack f.holdsPermit).count f.counted
    f.context result

/-- Hands a call to the client of a line: it reaches the backend, which settles it at once or has
    it under way. The timers for the answer and for the time limit are set in this order. -/
def hand (b : Switchboard) (layers : Layers) (index : Nat) (line : Line) (call : Call)
    (now order : Nat) : Switchboard × Placed :=
  -- The backend has the call from here on, also if it turns out to settle at once.
  let answer := line.backend.answer line.served call
  let b := (b.note (.reached call.context.kind line.target call.pattern call.payload))
  let b := { b with lines := b.lines.set index { line with served := line.served + 1 } }
  let f : Flight :=
    { context := call.context
      client := line.target
      answer := answer.result
      reply := ⟨now + answer.after.getD 0, order⟩
      limit := if layers.timed then some ⟨now + call.context.timeout, order + 1⟩ else none
      holdsPermit := layers.limited
      counted := layers.counted }
  match f.outcome? now with
  | some (result, answered) => (b.finish f result answered, .settled result)
  | none => ({ b with flights := b.flights ++ [(order, f)] }, .flying order)

/-- Places a call on a line. Two places in the order of timers are used up, and the first of them
    is the number of the flight. -/
def placeOn (b : Switchboard) (layers : Layers) (index : Nat) (call : Call) (now order : Nat) :
    Switchboard × Placed :=
  match b.lines[index]? with
  | none =>
    (b, .settled (.error (.unknownTarget call.context.target.name)))
  | some line =>
    if layers.limited then
      match b.permits.acquire? with
      | none =>
        -- The count is outside of the permits, so it sees a call that is turned away.
        let result : CallResult := .error .overloaded
        (b.count layers.counted call.context result, .settled result)
      | some permits => hand { b with permits := permits } layers index line call now order
    else hand b layers index line call now order

/-- Places a call to a target, through everything. A target without a line reaches nobody. -/
def place (b : Switchboard) (target : Target) (kind : CallKind) (pattern : String) (payload : Json)
    (timeout now order : Nat) : Switchboard × Placed :=
  match b.lines.findIdx? fun l => l.target == target with
  | none => (b, .settled (.error (.unknownTarget target.name)))
  | some index =>
    -- A number is used up whether the call gets a permit or not.
    let call : Call := ⟨⟨b.nextCall, target, kind, timeout⟩, pattern, payload⟩
    placeOn { b with nextCall := b.nextCall + 1 } .full index call now order

/-- The flight of a given number. -/
def flight? (b : Switchboard) (n : Nat) : Option Flight :=
  (b.flights.find? fun e => e.1 == n).map Prod.snd

/-- The switchboard without the flight of a given number. -/
def dismiss (b : Switchboard) (n : Nat) : Switchboard :=
  { b with flights := b.flights.filter fun e => e.1 != n }

/-- Settles the flight of a given number if it is due. -/
def land (b : Switchboard) (n now : Nat) : Switchboard × Option CallResult :=
  match b.flight? n with
  | none => (b, none)
  | some f =>
    match f.outcome? now with
    | none => (b, none)
    | some (result, answered) => ((b.dismiss n).finish f result answered, some result)

/-- Gives up the flight of a given number: its permit is free again, and nothing else happens. -/
def abandon (b : Switchboard) (n : Nat) : Switchboard :=
  match b.flight? n with
  | none => b
  | some f => (b.dismiss n).giveBack f.holdsPermit

/-- Closes every client, in reverse registry order. A client that fails to close does not keep the
    others from it. -/
def close (b : Switchboard) : Switchboard :=
  b.lines.reverse.foldl (fun b l => b.note (.closed l.target)) b

end Switchboard

end Gateway
