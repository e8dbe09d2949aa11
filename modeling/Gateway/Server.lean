import Gateway.Frame

/-!
# Serving

The stages of a server from the moment its address is bound to the moment its backends are
released. The system may refuse the address, where another server has it, and then the server is as
it was. It serves until it is told to stop, then waits for the requests under way, then for its
last connections, and then closes the clients of all backends. When waiting takes too long it
stops waiting and closes them at once, and when the listener ends by itself it does the same. So
however it ends, the clients are closed once, after everything else. A server that was never bound
does not serve at all.

What a stage does in passing to the next is a list of actions, in order; doing them is left to
whoever runs the server.

## Main definitions

* `Server.Stage`, `Server.Occurrence`, `Server.Action`: The stages, what moves a server from one to
  the next, and what it does in moving.
* `Server.Stage.bind`: A server and its address.
* `Server.Stage.next`: The stages in order.
* `Server.run`: A server through a list of occurrences.
-/

namespace Gateway

namespace Server

/-- How much a message matters. -/
inductive Level where
  | info
  | warn
  deriving DecidableEq, Repr

/-- The name of a level. -/
def Level.name : Level → String
  | .info => "INFO"
  | .warn => "WARN"

/-- The stages of a server. -/
inductive Stage where
  -- It does not serve yet, and its address is bound or not.
  | idle (isBound : Bool)
  | failed
  | serving
  -- It was told to stop and waits for the requests under way.
  | draining
  | finishing
  | ended
  deriving DecidableEq, Repr

/-- What moves a server from one stage to the next. -/
inductive Occurrence where
  | begin
  | stop
  -- No request is under way any more.
  | idle
  | overdue
  -- The listener and its last connection have ended.
  | finished
  deriving DecidableEq, Repr

/-- What a server does in passing to the next stage. -/
inductive Action where
  | say (level : Level) (message : String)
  | subscribe
  | setReady
  | trigger
  | closeClients
  deriving DecidableEq, Repr

/-- Binds a server that does not serve yet to its address, if the system gives it that. -/
def Stage.bind : Stage → Except IoKind Unit → Stage × Except IoKind Unit
  | .idle _, .ok () => (.idle true, .ok ())
  -- What stood in the way is for the caller to know, and no matter of the server.
  | s, given => (s, given)

/-- What a server that was never bound says. -/
def unboundMessage : String :=
  "start() must be called before serve()"

/-- How a server releases its backends. -/
def release : List Action :=
  [.closeClients, .say .info "Backend clients closed"]

/-- The next stage, and what is done on the way to it. What does not concern a stage leaves it as
    it is. -/
def Stage.next : Stage → Occurrence → Stage × List Action
  | .idle true, .begin =>
    (.serving, [.subscribe, .setReady, .say .info "Serving HTTP connections"])
  | .idle false, .begin => (.failed, [])
  | .serving, .stop =>
    (.draining, [.say .info "Shutdown requested, draining in-flight requests", .trigger])
  | .serving, .finished =>
    (.ended, .say .warn "HTTP server exited before shutdown was requested" :: release)
  | .draining, .idle => (.finishing, [.say .info "All in-flight requests drained"])
  -- The last connections are not waited for then.
  | .draining, .overdue =>
    (.ended, .say .warn "Drain timeout expired with in-flight requests remaining" :: release)
  | .finishing, .finished => (.ended, release)
  | s, _ => (s, [])

/-- Whether requests are let in. -/
def Stage.listens : Stage → Bool
  | .serving => true
  | _ => false

/-- A server through a list of occurrences: where it ends up, and everything it does. -/
def run : Stage → List Occurrence → Stage × List Action
  | s, [] => (s, [])
  | s, o :: rest =>
    let (s, now) := s.next o
    let (s, later) := run s rest
    (s, now ++ later)

end Server

end Gateway
