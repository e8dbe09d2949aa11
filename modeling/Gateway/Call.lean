import Gateway.Frame
import Gateway.Target

/-!
# Calls

A call goes to one target with a pattern and a payload. A request waits for the backend's reply; an
event only for its delivery. A call ends with a value or with one of eight errors, which callers
get as they are: nothing on the way repeats a call or hides how it ended.

## Main definitions

* `CallKind`, `Context`, `Call`: What is asked of a backend.
* `CallError`: How a call fails, with its message, its label and the target it concerns.
* `CallResult`: How a call ends.
-/

namespace Gateway

/-- Whether a call waits for a reply or only for delivery. -/
inductive CallKind where
  -- Ends with the backend's reply.
  | request
  -- Ends once the backend was told.
  | event
  deriving DecidableEq, Repr

/-- The label of a kind. -/
def CallKind.label : CallKind → String
  | .request => "request"
  | .event => "event"

/-- What accompanies a call on its way. -/
structure Context where
  id : Nat
  target : Target
  -- Whether a reply is expected.
  kind : CallKind
  -- How long it may take, in milliseconds.
  timeout : Nat
  deriving DecidableEq, Repr

/-- A call. -/
structure Call where
  -- What accompanies it.
  context : Context
  pattern : String
  payload : Json

/-- How a call fails. -/
inductive CallError where
  | unknownTarget (name : String)
  | timeout (target : Target) (ms : Nat)
  -- Too many calls are under way.
  | overloaded
  -- The connection could not be made or used.
  | transport (target : Target) (kind : IoKind) (text : String)
  | connectionClosed (target : Target)
  -- The backend reported an error.
  | remote (target : Target) (message : String)
  -- The backend ended the call without a response.
  | emptyResponse (target : Target)
  -- A frame could not be written or read.
  | codec (target : Target) (source : FrameError)
  deriving DecidableEq, Repr

namespace CallError

/-- The target that a failed call was addressed to, when it is known. -/
def target? : CallError → Option Target
  | .unknownTarget _ | .overloaded => none
  | .timeout t _ | .transport t _ _ | .connectionClosed t | .remote t _ | .emptyResponse t
  | .codec t _ => some t

/-- The label of an error, one for each cause. -/
def label : CallError → String
  | .unknownTarget _ => "unknown_target"
  | .timeout _ _ => "timeout"
  | .overloaded => "overloaded"
  | .transport _ _ _ => "transport"
  | .connectionClosed _ => "connection_closed"
  | .remote _ _ => "remote"
  | .emptyResponse _ => "empty_response"
  | .codec _ _ => "codec"

/-- The message of an error. -/
def message : CallError → String
  | .unknownTarget name => "no client provisioned for target " ++ name
  | .timeout t ms => "call to " ++ t.name ++ " timed out after " ++ Decimal.text ms ++ "ms"
  | .overloaded => "gateway overloaded, try again later"
  | .transport t _ text => "transport error talking to " ++ t.name ++ ": " ++ text
  | .connectionClosed t => "connection to " ++ t.name ++ " closed before a reply arrived"
  | .remote t message => t.name ++ " rejected the call: " ++ message
  | .emptyResponse t => t.name ++ " completed without a response"
  | .codec t source => "malformed frame exchanged with " ++ t.name ++ ": " ++ source.message

end CallError

/-- How a call ends. -/
abbrev CallResult := Except CallError Json

/-- The label of an ending: `ok`, or that of the error. -/
def CallResult.label : CallResult → String
  | .ok _ => "ok"
  | .error e => e.label

/-- Whether a call succeeded. -/
def CallResult.succeeded : CallResult → Bool
  | .ok _ => true
  | .error _ => false

end Gateway
