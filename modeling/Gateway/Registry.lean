import Gateway.Call
import Gateway.Text.Blank

/-!
# The registry

Where the backends are. A registry lists endpoints, one for each target it knows, in an order that
is also the order of fan-out; closing goes the other way round. It is built from a list, which may
not name a target twice, or from environment variables, which cannot fail: a host of white space
only counts as absent, and a port that is no number of sixteen bits is replaced by the target's
own.

Clients are matched with a registry once, at the start: each must serve a registered target, no two
the same one, and none may be missing.

## Main definitions

* `Endpoint`: A target with its host and port.
* `Registry`, `Registry.ofList`, `Registry.fromLookup`: The endpoints, and how they are found.
* `WiringError`: What can be wrong with a list of endpoints or clients.
* `Registry.wire`: Matches clients with the registry.
-/

namespace Gateway

/-- Where a backend is. -/
structure Endpoint where
  target : Target
  host : String
  port : Nat
  deriving DecidableEq, Repr

namespace Endpoint

/-- Host and port, as they are connected to. -/
def address (e : Endpoint) : String :=
  e.host ++ ":" ++ Decimal.text e.port

/-- Target and address, as they are logged. -/
def display (e : Endpoint) : String :=
  e.target.name ++ "@" ++ e.address

end Endpoint

/-- What can be wrong with a list of endpoints or of clients. -/
inductive WiringError where
  | duplicateTarget (target : Target)
  | missingClient (target : Target)
  | unregisteredClient (target : Target)
  deriving DecidableEq, Repr

/-- The message of a wiring error. -/
def WiringError.message : WiringError → String
  | .duplicateTarget t => "target " ++ t.name ++ " is registered more than once"
  | .missingClient t => "no client provisioned for registered target " ++ t.name
  | .unregisteredClient t => "client provided for unregistered target " ++ t.name

/-- The first entry of a list that repeats an earlier one, where `seen` came before. -/
def firstRepeated : List Target → List Target → Option Target
  | _, [] => none
  | seen, t :: rest => if t ∈ seen then some t else firstRepeated (t :: seen) rest

/-- The endpoints, no target twice. -/
structure Registry where
  endpoints : List Endpoint
  distinct : (endpoints.map Endpoint.target).Nodup

/-- Where nothing is repeated, no target is listed twice, nor again after it came before. -/
theorem firstRepeated_eq_none {seen ts : List Target} (h : firstRepeated seen ts = none) :
    ts.Nodup ∧ ∀ t ∈ ts, t ∉ seen := by
  induction ts generalizing seen with
  | nil => simp
  | cons t rest ih =>
    simp only [firstRepeated] at h
    split at h
    · cases h
    · obtain ⟨hd, hs⟩ := ih h
      refine ⟨List.nodup_cons.2 ⟨fun hm => hs t hm (List.mem_cons_self ..), hd⟩, ?_⟩
      intro u hu
      rcases List.mem_cons.1 hu with rfl | hu
      · assumption
      · exact fun hm => hs u hu (List.mem_cons_of_mem _ hm)

namespace Registry

/-- The targets in order. -/
def targets (r : Registry) : List Target :=
  r.endpoints.map Endpoint.target

/-- The registry of a list of endpoints; the first entry that repeats an earlier target is an
    error. -/
def ofList (endpoints : List Endpoint) : Except WiringError Registry :=
  match h : firstRepeated [] (endpoints.map Endpoint.target) with
  | some t => .error (.duplicateTarget t)
  | none => .ok ⟨endpoints, (firstRepeated_eq_none h).1⟩

/-- The endpoint of a target. -/
def get? (r : Registry) (t : Target) : Option Endpoint :=
  r.endpoints.find? fun e => e.target == t

/-- Whether a target is registered. -/
def contains (r : Registry) (t : Target) : Bool :=
  (r.get? t).isSome

/-- The host of a target that none was given for. -/
def defaultHost : String := "localhost"

/-- A port: an optional plus sign and digits, of a value that fits sixteen bits. -/
def port? (s : String) : Option Nat :=
  let digits := match s.toList with
    | '+' :: rest => rest
    | cs => cs
  match Decimal.ofText? (String.ofList digits) with
  | some n => if n < 65536 then some n else none
  | none => none

/-- The name of the variable that holds a target's host. -/
def hostVariable (t : Target) : String :=
  t.variablePrefix ++ "_HOST"

/-- The name of the variable that holds a target's port. -/
def portVariable (t : Target) : String :=
  t.variablePrefix ++ "_PORT"

/-- Every variable that is looked up, in order. -/
def variableNames : List String :=
  Target.all.flatMap fun t => [hostVariable t, portVariable t]

/-- The host in a variable: as it stands, unless it is white space only. -/
def hostOf (found : Option String) : String :=
  match found with
  | some host => if Text.isAllBlank host then defaultHost else host
  | none => defaultHost

/-- The port in a variable, or the target's own. -/
def portOf (t : Target) (found : Option String) : Nat :=
  ((found.bind fun raw => port? (Text.trim raw))).getD t.defaultPort

/-- The endpoint of a target as the variables have it. -/
def endpointFrom (lookup : String → Option String) (t : Target) : Endpoint :=
  ⟨t, hostOf (lookup (hostVariable t)), portOf t (lookup (portVariable t))⟩

/-- Every target, where the variables say it is. -/
def fromLookup (lookup : String → Option String) : Registry :=
  ⟨Target.all.map (endpointFrom lookup), by
    have h : (Target.all.map (endpointFrom lookup)).map Endpoint.target = Target.all := rfl
    rw [h]; decide⟩

/-- The registry of no variables at all. -/
def default : Registry :=
  fromLookup fun _ => none

/-- The first client that serves no registered target, or a target that an earlier client serves. -/
def firstMisplaced (registered : List Target) : List Target → List Target → Option WiringError
  | _, [] => none
  | seen, t :: rest =>
    if t ∉ registered then some (.unregisteredClient t)
    else if t ∈ seen then some (.duplicateTarget t)
    else firstMisplaced registered (t :: seen) rest

/-- The client of each registered target, in registry order; the first target without one is an
    error. -/
def place {α : Type} (clients : List (Target × α)) :
    List Target → Except WiringError (List (Target × α))
  | [] => .ok []
  | t :: rest =>
    match clients.find? fun c => c.1 == t with
    | none => .error (.missingClient t)
    | some c => (place clients rest).map (c :: ·)

/-- Matches clients with registered targets. What is wrong with a client is reported first, in the
    order of the clients, and only then a target without one, in the order of the registry. -/
def wire {α : Type} (registered : List Target) (clients : List (Target × α)) :
    Except WiringError (List (Target × α)) :=
  match firstMisplaced registered [] (clients.map Prod.fst) with
  | some e => .error e
  | none => place clients registered

end Registry

end Gateway
