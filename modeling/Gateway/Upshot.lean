import Gateway.Http.Api

/-!
# What comes of things

Whatever is done with the gateway ends in an upshot: a call in its result, a broadcast in a report,
a probe in the health of the backends, a request in a response. What is done in the background may
also be given up before it ends.

## Main definitions

* `Purpose`: What calls are made for.
* `Upshot`: What comes of something.
* `Purpose.conclude`: What comes of calls once all of them have settled.
-/

namespace Gateway

/-- What calls are made for. -/
inductive Purpose where
  | single
  | broadcast
  | probe
  deriving DecidableEq, Repr

/-- What an operation on the controller shows. -/
inductive Shown where
  | nothing
  | flag (b : Bool)
  -- What a receiver sees: the signal, and whether it changed.
  | signal (raised changed : Bool)

/-- What comes of a command. -/
inductive Upshot where
  | silent
  | call (result : CallResult)
  | report (report : Report)
  | health (report : HealthReport)
  | targets (ts : List Target)
  | wiring (ts : List Target) (timeout : Nat)
  | number (n : Nat)
  -- What an operation on the controller shows, and the controller after it.
  | controller (shown : Shown) (after : Lifecycle)
  | response (r : Http.Response)
  | unsendable (fault : Http.RequestFault)
  -- A request to a server that listens no more.
  | refused
  | flag (b : Bool)
  | exposition (lines : List String)
  | cancelled
  | unknown

/-- What comes of calls that have all settled. -/
def Purpose.conclude (purpose : Purpose) (outcomes : List Outcome) : Upshot :=
  match purpose, outcomes with
  | .single, o :: _ => .call o.result
  | .single, [] => .silent
  | .broadcast, os => .report ⟨os⟩
  | .probe, os => .health ⟨os.map HealthReport.ofOutcome⟩

end Gateway
