import Gateway.Call
import Gateway.Limiter

/-!
# Routes

The paths of the HTTP interface. Four of them forward what they are sent to the backends, for
callers who show who they are and within a quota; the others tell about the server. A path has to
match in full, and each answers one method only, `GET` also without its content.

## Main definitions

* `Http.Route`: The routes.
* `Http.Route.ofPath?`: The route of a path.
* `Http.Route.forward?`: What a route asks of the backends.
-/

namespace Gateway

namespace Http

/-- A path of the HTTP interface. -/
inductive Route where
  | notifications
  | inventory
  | predictions
  | broadcast
  -- Whether callers can show who they are.
  | authHealth
  | health
  | live
  | ready
  | backends
  -- The time at the server.
  | status
  | metrics
  deriving DecidableEq, Repr

namespace Route

/-- Every route. -/
def all : List Route :=
  [.notifications, .inventory, .predictions, .broadcast, .authHealth, .health, .live, .ready,
    .backends, .status, .metrics]

/-- The path of a route. -/
def path : Route → String
  | .notifications => "/api/notifications"
  | .inventory => "/api/inventory"
  | .predictions => "/api/predictions"
  | .broadcast => "/api/broadcast"
  | .authHealth => "/auth/health"
  | .health => "/health"
  | .live => "/health/live"
  | .ready => "/health/ready"
  | .backends => "/system/monitoring/health"
  | .status => "/system/monitoring/status"
  | .metrics => "/metrics"

/-- The route of a path. -/
def ofPath? (path : String) : Option Route :=
  all.find? fun r => r.path == path

/-- What a forwarding route asks of the backends. -/
inductive Forward where
  | send (target : Target) (pattern : String)
  | broadcast (pattern : String)
  deriving DecidableEq, Repr

/-- What a route asks of the backends, and within which quota; other routes ask nothing. -/
def forward? : Route → Option (Forward × Quota)
  | .notifications => some (.send .notification "createNotification", .notifications)
  | .inventory => some (.send .inventory "updateInventory", .inventory)
  | .predictions => some (.send .aiMl "getPrediction", .predictions)
  | .broadcast => some (.broadcast "globalEvent", .broadcast)
  | _ => none

/-- Whether a route forwards. -/
def forwards (r : Route) : Bool :=
  r.forward?.isSome

/-- Whether a route answers a method. -/
def answers (r : Route) (method : String) : Bool :=
  if r.forwards then method == "POST" else method == "GET" || method == "HEAD"

/-- The methods a route answers, as it tells them. -/
def allow (r : Route) : String :=
  if r.forwards then "POST" else "GET,HEAD"

/-- What requests are counted under: the path of their route, or that they have none. -/
def label (r : Option Route) : String :=
  match r with
  | some r => r.path
  | none => "unmatched"

end Route

end Http

end Gateway
