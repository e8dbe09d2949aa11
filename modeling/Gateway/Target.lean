import Gateway.Json.Choice

/-!
# Targets

The backends the gateway can call. The set is closed: every table over targets is a function on
this type. A target has a name on the wire, a family of environment variables that say where it
is, and a port for when they do not.

## Main definitions

* `Target`: The backends, in registry order.
* `Target.name`, `Target.variablePrefix`, `Target.defaultPort`: What is fixed for each.
* `Target.ofText`: Reads a target from JSON text.
-/

namespace Gateway

/-- A backend the gateway can call. -/
inductive Target where
  | notification
  | inventory
  | aiMl
  deriving DecidableEq, Repr, Inhabited

namespace Target

/-- Every target, in registry order. -/
def all : List Target :=
  [.notification, .inventory, .aiMl]

/-- The place of a target in registry order. -/
def rank : Target → Nat
  | .notification => 0
  | .inventory => 1
  | .aiMl => 2

/-- The name used on the wire, in configuration and in answers. -/
def name : Target → String
  | .notification => "notification"
  | .inventory => "inventory"
  | .aiMl => "aiMl"

/-- What the names of a target's environment variables start with. -/
def variablePrefix : Target → String
  | .notification => "NOTIFICATION_SERVICE"
  | .inventory => "INVENTORY_SERVICE"
  | .aiMl => "AI_ML_SERVICE"

/-- The port of a target that none was given for. -/
def defaultPort : Target → Nat
  | .notification => 3001
  | .inventory => 3002
  | .aiMl => 3003

/-- The target with a given name. -/
def ofName? (s : String) : Option Target :=
  all.find? fun t => t.name == s

/-- A target as a JSON value. -/
def json (t : Target) : Json :=
  .string t.name

/-- Reads a target from JSON text: its name as a string, or an object with the name as its only key
    and `null` as the value. -/
def read (bs : Bytes) : Reading Target :=
  Json.readChoice ofName? false bs

/-- Reads a target from a whole JSON text. -/
def ofText (bs : Bytes) : Except Fault Target :=
  Json.complete (read bs)

end Target

end Gateway
