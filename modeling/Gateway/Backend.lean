import Gateway.Call

/-!
# Backends

What the gateway needs to know of a backend is how it treats each call: with which result, and
after how long. A backend is therefore a function from the number of a call and the call to an
answer, with nothing assumed of it: it may be slow, fail or never answer. What reaches the
backends, and when, is written to a trace.

For rehearsals a backend can be given as a script, a list of what to do call after call, the last
entry again and again.

## Main definitions

* `Answer`, `Backend`: How a call is treated.
* `Backend.ofScript`: The backend that follows a script.
* `Trace`: What is seen at the backends.
-/

namespace Gateway

/-- How a backend treats one call. -/
structure Answer where
  -- How long it takes, in milliseconds; at once when not given.
  after : Option Nat
  result : CallResult

/-- A backend behind one client. -/
structure Backend where
  -- How the call of a given number is treated.
  answer : Nat → Call → Answer
  -- Whether the client can be closed in order.
  closes : Bool := true

/-- One line of a script. -/
structure Cue where
  after : Option Nat
  -- What is answered; a call that is not given a result is sent back as its own.
  result : Option CallResult

/-- The word for a kind of call in what is sent back. -/
def CallKind.verb : CallKind → String
  | .request => "send"
  | .event => "emit"

/-- A call as a value: what was asked for and how. -/
def Call.echo (c : Call) : Json :=
  .object [("kind", .string c.context.kind.verb), ("pattern", .string c.pattern),
    ("payload", c.payload)]

/-- What a line of a script makes of a call. -/
def Cue.answer (cue : Cue) (call : Call) : Answer :=
  ⟨cue.after, cue.result.getD (.ok call.echo)⟩

namespace Backend

/-- The line of a script for the call of a given number; the last one repeats, and an empty script
    answers `null`. -/
def cueAt (script : List Cue) (n : Nat) : Cue :=
  (script[min n (script.length - 1)]?).getD ⟨none, some (.ok .null)⟩

/-- The backend that follows a script. -/
def ofScript (script : List Cue) (closes : Bool := true) : Backend :=
  ⟨fun n call => (cueAt script n).answer call, closes⟩

/-- The backend that sends every call back. -/
def echo : Backend :=
  ofScript [⟨none, none⟩]

end Backend

/-- What is seen at the backends. -/
inductive Trace where
  | reached (kind : CallKind) (target : Target) (pattern : String) (payload : Json)
  | finished (target : Target)
  | closed (target : Target)

end Gateway
