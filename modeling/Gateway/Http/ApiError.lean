import Gateway.Broadcast
import Gateway.Http.Message
import Gateway.Limiter

/-!
# Errors of the HTTP interface

Whatever goes wrong in answering a request becomes one of five errors, and every error becomes a
status and a body with its message. Too many requests are answered with how long to wait, in whole
seconds and at least one; a failed broadcast is answered with who failed and who was reached.

## Main definitions

* `ApiError`: The errors.
* `ApiError.status`, `ApiError.message`, `ApiError.response`: What becomes of them.
-/

namespace Gateway

/-- What goes wrong in answering a request. -/
inductive ApiError where
  | unauthorized (message : String)
  -- The caller asked too often; asking again is in vain for so many nanoseconds.
  | tooManyRequests (message : String) (wait : Nat)
  | unavailable (message : String)
  | route (error : CallError)
  | broadcast (error : BroadcastError)
  deriving DecidableEq, Repr

/-- The status for a failed call. -/
def CallError.status : CallError → Nat
  | .timeout _ _ => 504
  | .overloaded => 503
  | .unknownTarget _ => 500
  | .transport _ _ _ | .connectionClosed _ | .remote _ _ | .emptyResponse _ | .codec _ _ => 502

namespace ApiError

/-- A second, in nanoseconds. -/
def second : Nat :=
  1000000000

/-- A millisecond, in nanoseconds. -/
def millisecond : Nat :=
  1000000

/-- The error of a caller who is over a quota and may ask again after so many milliseconds. -/
def overQuota (quota : Quota) (wait : Nat) : ApiError :=
  .tooManyRequests quota.message (wait * millisecond)

/-- The status of an error. -/
def status : ApiError → Nat
  | .unauthorized _ => 401
  | .tooManyRequests _ _ => 429
  | .unavailable _ => 503
  | .route e => e.status
  | .broadcast _ => 502

/-- The message of an error. -/
def message : ApiError → String
  | .unauthorized m => m
  | .tooManyRequests m _ => m
  | .unavailable m => m
  | .route e => e.message
  | .broadcast e => e.message

/-- Whole seconds to wait, at least one. -/
def retrySeconds (wait : Nat) : Nat :=
  max (wait / second) 1

/-- The body of an error. -/
def body : ApiError → Json
  | .broadcast e =>
    .object [
      ("delivered", .array (e.delivered.map Target.json)),
      ("error", .string e.message),
      ("failed", .array (e.failed.map fun (t, err) =>
        .object [("error", .string err.message), ("target", t.json)]))]
  | e => .object [("error", .string e.message)]

/-- The response of an error. -/
def response (e : ApiError) : Http.Response :=
  let r := Http.Response.ofJson e.status e.body
  match e with
  | .tooManyRequests _ wait => r.withHeader "retry-after" (Decimal.text (retrySeconds wait))
  | _ => r

end ApiError

end Gateway
