import Gateway.Call

/-!
# Broadcast reports

A broadcast goes to every registered target, and each gets an outcome of its own, in registry order
whatever the order in which the calls ended. The strict view of a report is all or nothing: every
acknowledgement, or an error that lists who failed and who was reached.

## Main definitions

* `Outcome`, `Report`: What became of a broadcast.
* `Report.delivered`, `Report.failed`: The two parts of a report.
* `Report.values`: The strict view.
-/

namespace Gateway

/-- What became of a broadcast at one target. -/
structure Outcome where
  target : Target
  result : CallResult

/-- Whether the target acknowledged the event. -/
def Outcome.isDelivered (o : Outcome) : Bool :=
  o.result.succeeded

/-- The outcomes of a broadcast, in registry order. -/
structure Report where
  -- One outcome for each target.
  outcomes : List Outcome

/-- A broadcast that did not reach every target. -/
structure BroadcastError where
  failed : List (Target × CallError)
  delivered : List Target
  deriving DecidableEq, Repr

/-- The message of a failed broadcast. -/
def BroadcastError.message (e : BroadcastError) : String :=
  "broadcast failed for "
    ++ ", ".intercalate (e.failed.map fun (t, err) => t.name ++ " (" ++ err.message ++ ")")
    ++ "; delivered to " ++ Decimal.text e.delivered.length ++ " target(s)"

namespace Report

/-- Whether every target acknowledged the event. -/
def isComplete (r : Report) : Bool :=
  r.outcomes.all Outcome.isDelivered

/-- The targets that acknowledged the event. -/
def delivered (r : Report) : List Target :=
  (r.outcomes.filter Outcome.isDelivered).map Outcome.target

/-- The error of an outcome that failed, with its target. -/
def failure? (o : Outcome) : Option (Target × CallError) :=
  match o.result with
  | .ok _ => none
  | .error e => some (o.target, e)

/-- The targets that failed, with their errors. -/
def failed (r : Report) : List (Target × CallError) :=
  r.outcomes.filterMap failure?

/-- The value of an outcome that was delivered. -/
def value? (o : Outcome) : Option Json :=
  match o.result with
  | .ok v => some v
  | .error _ => none

/-- Sorts outcomes into who failed and who was reached, each in order. -/
def sort : List Outcome → BroadcastError
  | [] => ⟨[], []⟩
  | o :: rest =>
    let parts := sort rest
    match o.result with
    | .ok _ => { parts with delivered := o.target :: parts.delivered }
    | .error e => { parts with failed := (o.target, e) :: parts.failed }

/-- The acknowledgements in order, if there is no other outcome; otherwise who failed and who was
    reached. -/
def values (r : Report) : Except BroadcastError (List Json) :=
  if r.isComplete then .ok (r.outcomes.filterMap value?) else .error (sort r.outcomes)

end Report

end Gateway
