import Gateway.Http.Api

/-!
# Around the interface

When the server is reached over the network, requests and answers pass some layers before and
after they are received. From outside to inside: the request gets an id if it has none; the answer
may be compressed; its origin is checked, and a request that only asks what is allowed is answered
here; an answer that takes too long is replaced; and the id of the request is put on the answer.

An answer that was replaced and one that was given on the way in have no id, as the layer that puts
it there is inside those. Whether only headers are wanted is looked at outside of everything, so
such an answer has the headers of the whole one.

## Main definitions

* `Envelope`: What the layers are configured with.
* `Envelope.preflight?`: The answer to a request that only asks what is allowed.
* `Envelope.deliver`: What an answer becomes on its way out.
* `Envelope.late`: The answer in place of one that takes too long.
-/

namespace Gateway

open Http

/-- What the layers around the interface are configured with. -/
structure Envelope where
  origins : Origins
  -- How long an answer may take, in milliseconds.
  timeout : Nat

namespace Envelope

/-- The header that the id of a request stands in. -/
def idHeader : String := "x-request-id"

/-- The fewest octets that are worth compressing. -/
def compressible : Nat := 32

/-- The headers that tell who may read an answer. -/
def originHeaders (e : Envelope) (r : Http.Request) : List (String × Bytes) :=
  [("vary", utf8 "origin, access-control-request-method, access-control-request-headers")]
    ++ (match e.origins.allowed? r with
      | some o => [("access-control-allow-origin", o)]
      | none => [])

/-- Compresses an answer that is long enough, if the client prefers it. -/
def compress (r : Http.Request) (response : Response) : Response :=
  if response.content.size < compressible then response
  else
    -- That the answer depends on what is accepted is told whether it is compressed or not.
    let response := response.withHeader "vary" "accept-encoding"
    if prefersGzip r then response.withHeader "content-encoding" "gzip" else response

/-- Puts the headers on an answer that tell who may read it, and compresses it. -/
def expose (e : Envelope) (r : Http.Request) (response : Response) : Response :=
  compress r (response.withHeaders (e.originHeaders r))

/-- The answer to a request that only asks what is allowed; other requests are let in. -/
def preflight? (e : Envelope) (r : Http.Request) : Option Response :=
  if r.method == "OPTIONS" then
    some (e.expose r ((Response.bare 200).withHeader "access-control-allow-methods" "GET,POST"
      |>.withHeader "access-control-allow-headers" "authorization,content-type"))
  else none

/-- The id of a request: its own, or else a fresh one. -/
def requestId (r : Http.Request) (fresh : String) : Bytes :=
  (r.value? idHeader).getD (utf8 fresh)

/-- What an answer from inside becomes on its way out. -/
def deliver (e : Envelope) (r : Http.Request) (fresh : String) (response : Response) : Response :=
  e.expose r (response.withHeaders [(idHeader, requestId r fresh)])

/-- The answer in place of one that takes too long. -/
def late (e : Envelope) (r : Http.Request) : Response :=
  e.expose r (.bare 408)

end Envelope

end Gateway
