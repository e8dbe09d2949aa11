import Gateway.Call

/-!
# Metrics

Calls and requests are counted where they end. A call counts once under its target, its kind and
how it ended, and its duration is observed once under target and kind; a request counts once under
its route, its method and the status of its answer. The exposition lists every series that has
been counted, in the text format that scrapers read.

## Main definitions

* `Tally`: How often each of some things was counted.
* `Metrics`: The tallies of the gateway.
* `Metrics.recordCall`, `Metrics.recordRequest`: Count a call or a request.
* `Metrics.exposition`: The lines of the text format.
-/

namespace Gateway

/-- How often things were counted; what is missing was counted never. -/
abbrev Tally (α : Type) := List (α × Nat)

namespace Tally

variable {α : Type} [DecidableEq α]

/-- How often a thing was counted. -/
def count (t : Tally α) (a : α) : Nat :=
  match t.find? fun e => e.1 == a with
  | some e => e.2
  | none => 0

/-- Counts a thing once more. -/
def bump (a : α) : Tally α → Tally α
  | [] => [(a, 1)]
  | (b, n) :: rest => if b = a then (b, n + 1) :: rest else (b, n) :: bump a rest

end Tally

/-- What a call is counted under. -/
structure CallSeries where
  target : Target
  kind : CallKind
  outcome : String
  deriving DecidableEq, Repr

/-- What a request is counted under. -/
structure RequestSeries where
  -- The route, or that there is none.
  path : String
  method : String
  status : Nat
  deriving DecidableEq, Repr

/-- What the gateway counts. -/
structure Metrics where
  calls : Tally CallSeries := []
  durations : Tally (Target × CallKind) := []
  requests : Tally RequestSeries := []
  deriving Repr

namespace Metrics

/-- Nothing counted yet. -/
def empty : Metrics := {}

/-- Counts a call that ended. -/
def recordCall (m : Metrics) (target : Target) (kind : CallKind) (result : CallResult) : Metrics :=
  { m with
    calls := Tally.bump ⟨target, kind, CallResult.label result⟩ m.calls
    durations := Tally.bump (target, kind) m.durations }

/-- Counts a request that was answered. -/
def recordRequest (m : Metrics) (path method : String) (status : Nat) : Metrics :=
  { m with requests := Tally.bump ⟨path, method, status⟩ m.requests }

/-- The value of a label in quotes: backslashes, quotes and line feeds are escaped. -/
def quoteLabel (s : String) : String :=
  let escape (c : Char) : List Char :=
    if c = '\\' then ['\\', '\\']
    else if c = '"' then ['\\', '"']
    else if c = '\n' then ['\\', 'n']
    else [c]
  "\"" ++ String.ofList (s.toList.flatMap escape) ++ "\""

/-- The line of a series: its name, its labels and its value. -/
def line (name : String) (labels : List (String × String)) (n : Nat) : String :=
  name ++ "\x7b" ++ ",".intercalate (labels.map fun (k, v) => k ++ "=" ++ quoteLabel v) ++ "\x7d "
    ++ Decimal.text n

/-- The name of the counter of calls. -/
def callsName : String := "gatehouse_calls_total"

/-- The name of the summary of durations. -/
def durationsName : String := "gatehouse_call_duration_seconds"

/-- The name of the counter of requests. -/
def requestsName : String := "http_requests_total"

/-- The line that declares the type of a metric, if it has series. -/
def declaration (name type : String) (isEmpty : Bool) : List String :=
  if isEmpty then [] else ["# TYPE " ++ name ++ " " ++ type]

/-- The lines of the text format, sorted. Of a summary only the number of observations is listed. -/
def exposition (m : Metrics) : List String :=
  let calls := m.calls.map fun (s, n) =>
    line callsName
      [("target", s.target.name), ("kind", s.kind.label), ("outcome", s.outcome)] n
  let durations := m.durations.map fun ((t, k), n) =>
    line (durationsName ++ "_count") [("target", t.name), ("kind", k.label)] n
  let requests := m.requests.map fun (s, n) =>
    line requestsName
      [("path", s.path), ("method", s.method), ("status_code", Decimal.text s.status)] n
  let lines := declaration callsName "counter" calls.isEmpty ++ calls
    ++ declaration durationsName "summary" durations.isEmpty ++ durations
    ++ declaration requestsName "counter" requests.isEmpty ++ requests
  lines.mergeSort fun a b => !(b < a)

end Metrics

end Gateway
