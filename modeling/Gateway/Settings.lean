import Gateway.Frame

/-!
# Settings

What the gateway and its server can be told, with what holds when they are told nothing. Times are
milliseconds and sizes octets.

## Main definitions

* `CallSettings`: How backends are called.
* `ServerSettings`: How the server is reached.
* `ServerSettings.bind`: Where it listens.
-/

namespace Gateway

/-- How backends are called. -/
structure CallSettings where
  -- How long a call may take that is given no time of its own.
  callTimeout : Nat := 5000
  maxCalls : Nat := 1000
  probeTimeout : Nat := 2000
  connectTimeout : Nat := 3000
  maxFrame : Nat := Frame.defaultLimit
  deriving DecidableEq, Repr

/-- How the server is reached. -/
structure ServerSettings where
  host : String := "0.0.0.0"
  -- The port it listens at; any free one for zero.
  port : Nat := 0
  origins : List String := ["*"]
  requestTimeout : Nat := 30000
  -- How long requests under way may take once the server drains.
  drainTimeout : Nat := 30000
  deriving DecidableEq, Repr

/-- Where the server listens. -/
def ServerSettings.bind (s : ServerSettings) : String :=
  s.host ++ ":" ++ Decimal.text s.port

end Gateway
