import Gateway.Calendar
import Gateway.Http.ApiError
import Gateway.Http.Negotiation
import Gateway.Http.Routes
import Gateway.Lifecycle
import Gateway.Token.Claims

/-!
# Receiving requests

What happens between the arrival of a request and its answer. A request to a forwarding route is
checked in a fixed order: that the server is not draining, that the caller shows a valid token,
that the body is declared and is JSON of at most two binary megabytes, and that the caller is
within the quota of the route. The first check that fails answers, and nothing that comes after it
is touched; only the last check leaves a mark. A request that passes them all becomes one call, or
one broadcast, with the parsed body as it is.

Requests to forwarding routes are counted as under way from the first check that passes until they
are answered.

## Main definitions

* `Api`: What the handlers share.
* `Api.authenticate`, `Api.readBody`, `Api.spend`: The checks.
* `Api.receive`: What becomes of a request on arrival: an answer, or something to ask the backends.
* `Api.created`, `Api.acknowledged`, `Api.probed`: The answers once the backends have spoken.
-/

namespace Gateway

open Http

/-- How a backend answered a probe. -/
structure ServiceHealth where
  target : Target
  -- The message of the error, if the probe failed.
  error : Option String

/-- How all backends answered a probe, in registry order. -/
structure HealthReport where
  -- One entry for each target.
  services : List ServiceHealth

namespace HealthReport

/-- The pattern that every backend answers when it is alive. -/
def pattern : String := "health"

/-- The payload of a probe. -/
def payload : Json := .object []

/-- Whether every backend is up. -/
def healthy (r : HealthReport) : Bool :=
  r.services.all fun s => s.error.isNone

/-- The health that an outcome tells of. -/
def ofOutcome (o : Outcome) : ServiceHealth :=
  match o.result with
  | .ok _ => ⟨o.target, none⟩
  | .error e => ⟨o.target, some e.message⟩

/-- A report as a value. -/
def json (r : HealthReport) : Json :=
  .object [("healthy", .bool r.healthy), ("services", .array (r.services.map fun s =>
    .object ([("service", s.target.json),
      ("status", .string (if s.error.isNone then "up" else "down"))]
      ++ (s.error.map fun e => ("error", Json.string e)).toList)))]

end HealthReport

/-- What the handlers share. -/
structure Api where
  secret : String
  -- How long a probe of a backend may take, in milliseconds.
  probeTimeout : Nat
  -- Whether what is counted can be read.
  recorded : Bool
  -- What the clock on the wall shows, in milliseconds since 1970. It is set from outside: the
  -- clock that windows and time limits are measured by does not move it.
  wall : Nat
  limiter : Limiter := {}
  lifecycle : Lifecycle := {}

/-- What is asked of the backends for a request. -/
inductive Inquiry where
  | send (target : Target) (pattern : String) (payload : Json)
  | broadcast (pattern : String) (payload : Json)
  | probe (timeout : Nat)

/-- What becomes of a request on arrival: its answer, or what is asked of the backends for it. -/
abbrev Reception := Except Response Inquiry

namespace Api

/-- The most octets a body may have. -/
def bodyLimit : Nat := 2097152

/-- The answer while the server drains. -/
def draining : ApiError :=
  .unavailable "Server is shutting down"

/-- The token in the headers of a request: what follows `Bearer ` in the first authorization,
    without white space around it. -/
def bearer? (r : Http.Request) : Option String := do
  let value ← r.value? "authorization"
  let value ← visible? value
  let token ← value.dropPrefix? "Bearer "
  let token := Text.trim token.toString
  if token.isEmpty then none else some token

/-- Who sent a request at a time in seconds since 1970. -/
def authenticate (secret : String) (now : Nat) (r : Http.Request) : Except ApiError Claims :=
  match bearer? r with
  | none => .error (.unauthorized "Missing bearer token")
  | some token =>
    match Token.verify secret now token with
    | .ok claims => .ok claims
    | .error e => .error (.unauthorized e.message)

/-- The value in the body of a request, or the answer that refuses it. -/
def readBody (r : Http.Request) : Except Response Json :=
  if !isJson r then
    .error (.ofText 415 "Expected request with `Content-Type: application/json`")
  else if bodyLimit < r.body.length then
    .error (.ofText 413 "Failed to buffer the request body: length limit exceeded")
  else match Json.parse r.body with
    | .ok v => .ok v
    | .error _ => .error (.ofText 400 "Failed to parse the request body as JSON: <detail>")

/-- Spends one point of a caller's quota. -/
def spend (api : Api) (now : Nat) (quota : Quota) (caller : String) :
    Api × Except ApiError Unit :=
  let (limiter, verdict) := api.limiter.check now quota caller
  ({ api with limiter := limiter }, match verdict with
    | .admitted => .ok ()
    | .refused wait => .error (.overQuota quota wait))

/-- The call or broadcast of a forwarding route. -/
def inquiry (forward : Route.Forward) (payload : Json) : Inquiry :=
  match forward with
  | .send target pattern => .send target pattern payload
  | .broadcast pattern => .broadcast pattern payload

/-- The time in seconds since 1970. -/
def wallSeconds (api : Api) : Nat :=
  api.wall / 1000

/-- What becomes of a request to a forwarding route of a server that is not draining. -/
def forward (api : Api) (now : Nat) (forward : Route.Forward) (quota : Quota) (r : Http.Request) :
    Api × Reception :=
  match authenticate api.secret api.wallSeconds r with
  | .error e => (api, .error e.response)
  | .ok claims =>
    -- A body that cannot be read costs the caller none of the quota.
    match readBody r with
    | .error response => (api, .error response)
    | .ok body =>
      match api.spend now quota claims.sub with
      | (api, .error e) => (api, .error e.response)
      | (api, .ok ()) => (api, .ok (inquiry forward body))

/-- The state of the server as a value. -/
def healthJson (api : Api) (now : Nat) (targets : List Target) : Json :=
  .object [("backends", .array (targets.map Target.json)),
    ("in_flight", .ofNat api.lifecycle.inFlight),
    ("state", .string api.lifecycle.phase.name),
    ("uptime_secs", .ofNat (now / 1000))]

/-- What becomes of a request to a route that tells about the server. -/
def tell (api : Api) (now : Nat) (targets : List Target) (exposition : List String) :
    Route → Reception
  | .authHealth => .error (.ofJson 200 (.object [("status", .string "ok")]))
  | .health => .error (.ofJson 200 (api.healthJson now targets))
  | .live => .error (.bare 200)
  | .ready => .error (.bare (if api.lifecycle.phase = .ready then 200 else 503))
  | .backends => .ok (.probe api.probeTimeout)
  | .status =>
    .error (.ofJson 200 (.object [("status", .string "ok"),
      ("timestamp", .string (Calendar.stamp api.wall))]))
  | .metrics =>
    .error (if api.recorded then
      .ofContent 200 "text/plain; version=0.0.4" (.exposition exposition)
    else .ofText 404 "metrics recorder not installed")
  | _ => .error (.bare 404)

/-- What becomes of a request on arrival, and whether it counts as under way from now on. The
    targets and what has been counted are those of the switchboard behind the interface. -/
def receive (api : Api) (now : Nat) (targets : List Target) (exposition : List String)
    (r : Http.Request) : Api × Reception × Bool :=
  match Route.ofPath? r.path with
  | none => (api, .error (.bare 404), false)
  | some route =>
    match route.forward? with
    | some (what, quota) =>
      -- Being under way is counted before the method is looked at, so a wrong one counts too.
      if api.lifecycle.isDraining then (api, .error draining.response, false)
      else
        let api := { api with lifecycle := api.lifecycle.enter }
        if route.answers r.method then
          let (api, reception) := api.forward now what quota r
          (api, reception, true)
        else (api, .error (.bare 405), true)
    | none =>
      if route.answers r.method then (api, api.tell now targets exposition route, false)
      else (api, .error (.bare 405), false)

/-- The answer to a request that became a call. -/
def created (result : CallResult) : Response :=
  match result with
  | .ok v => .ofJson 201 v
  | .error e => (ApiError.route e).response

/-- The answer to a request that became a broadcast. -/
def acknowledged (report : Report) : Response :=
  match report.values with
  | .ok vs => .ofJson 201 (.array vs)
  | .error e => (ApiError.broadcast e).response

/-- The answer to a request that became a probe. -/
def probed (report : HealthReport) : Response :=
  .ofJson (if report.healthy then 200 else 503) report.json

/-- What every answer gets on its way out: a route that does not answer the method tells which it
    does. -/
def addressed (r : Http.Request) (response : Response) : Response :=
  match Route.ofPath? r.path with
  | some route =>
    if route.answers r.method then response else response.withHeader "allow" route.allow
  | none => response

end Api

end Gateway
