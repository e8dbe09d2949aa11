/-!
# The life of the server

A server starts, is ready, drains and has stopped. Probes read its phase; while it drains or has
stopped, new requests are refused. Requests under way are counted, and draining waits until none
is left. Who wants to know when shutdown begins subscribes to a signal.

The operations are those of a shared controller, and any owner may use any of them at any time:
becoming ready and being triggered set the phase whatever it was, and waiting for an idle server
ends in the last phase from any other. The signal changes only while somebody listens.

## Main definitions

* `Phase`: The phases of a server.
* `Lifecycle`: The controller.
* `Lifecycle.setReady`, `Lifecycle.trigger`, `Lifecycle.enter`, `Lifecycle.leave`,
  `Lifecycle.settle`: Its operations.
* `Receiver`: A subscription to the signal.
-/

namespace Gateway

/-- The phases of a server, in their documented order. -/
inductive Phase where
  | starting
  | ready
  -- Finishing what is under way; new requests are refused.
  | draining
  | stopped
  deriving DecidableEq, Repr

namespace Phase

/-- The name of a phase. -/
def name : Phase → String
  | .starting => "starting"
  | .ready => "ready"
  | .draining => "draining"
  | .stopped => "stopped"

/-- The place of a phase in the documented order. -/
def rank : Phase → Nat
  | .starting => 0
  | .ready => 1
  | .draining => 2
  | .stopped => 3

/-- Whether new requests are refused. -/
def refuses : Phase → Bool
  | .draining | .stopped => true
  | _ => false

end Phase

/-- The signal that shutdown has begun. -/
structure Signal where
  raised : Bool := false
  -- How many times it was sent.
  version : Nat := 0
  deriving DecidableEq, Repr

/-- The controller of a server's life. -/
structure Lifecycle where
  phase : Phase := .starting
  inFlight : Nat := 0
  signal : Signal := {}
  listeners : Nat := 0
  deriving DecidableEq, Repr

/-- A subscription to the signal: the version that was current when it was made. -/
structure Receiver where
  seen : Nat
  deriving DecidableEq, Repr

namespace Lifecycle

/-- The controller of a server that has not started. -/
def new : Lifecycle := {}

/-- Whether new requests are refused. -/
def isDraining (l : Lifecycle) : Bool :=
  l.phase.refuses

/-- Becomes ready, from any phase. -/
def setReady (l : Lifecycle) : Lifecycle :=
  { l with phase := .ready }

/-- Begins to drain, from any phase, and tells whoever listens. -/
def trigger (l : Lifecycle) : Lifecycle :=
  -- With nobody listening the signal is lost, and later subscribers do not see it.
  { l with
    phase := .draining
    signal := if l.listeners = 0 then l.signal else ⟨true, l.signal.version + 1⟩ }

/-- Counts one more request under way. -/
def enter (l : Lifecycle) : Lifecycle :=
  { l with inFlight := l.inFlight + 1 }

/-- Counts one request less, and tells whether it was the last. -/
def leave (l : Lifecycle) : Lifecycle × Bool :=
  ({ l with inFlight := l.inFlight - 1 }, l.inFlight == 1)

/-- What waiting for the server to be idle does when it looks: stops it if nothing is under way. -/
def settle (l : Lifecycle) : Lifecycle × Bool :=
  if l.inFlight = 0 then ({ l with phase := .stopped }, true) else (l, false)

/-- Subscribes to the signal. -/
def subscribe (l : Lifecycle) : Lifecycle × Receiver :=
  ({ l with listeners := l.listeners + 1 }, ⟨l.signal.version⟩)

/-- Ends a subscription. -/
def unsubscribe (l : Lifecycle) : Lifecycle :=
  { l with listeners := l.listeners - 1 }

/-- Whether the signal was sent since a receiver last saw it. -/
def hasChanged (l : Lifecycle) (r : Receiver) : Bool :=
  r.seen != l.signal.version

end Lifecycle

end Gateway
