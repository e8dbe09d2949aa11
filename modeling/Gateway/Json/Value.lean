import Gateway.Decimal.Binary64

/-!
# JSON values

The dynamic values of the gateway: what a body or a frame holds when nothing is known of it but
that it is JSON. Integers that fit a word of 64 bits, with or without sign, are kept exactly, and
every other number is a binary fraction. The members of an object are kept sorted by key with no
key twice, so two objects with the same members are the same value and have the same text;
`Json.insert` is the only way members are added while reading, and `Json.WellFormed` says what it
keeps.

## Main definitions

* `Number`, `Json`: Numbers and values.
* `Json.insert`: Adds a member at its place, replacing one of the same key.
* `Json.field?`: The member of an object with a given key.
* `Json.nesting`: How deep arrays and objects are nested.
* `Json.WellFormed`: The members of every object are strictly sorted by key.
-/

namespace Gateway

/-- A number: an integer of one word, or a binary fraction. -/
inductive Number where
  | integer (n : Int) (fits : -0x8000000000000000 ≤ n ∧ n < 0x10000000000000000)
  | fraction (x : Binary64)
  deriving DecidableEq, Repr

/-- A natural number of one word as a number. -/
def Number.ofWord (n : Nat) (h : n < 0x10000000000000000) : Number :=
  .integer n (by omega)

/-- A JSON value. -/
inductive Json where
  | null
  | bool (b : Bool)
  | number (n : Number)
  | string (s : String)
  | array (items : List Json)
  -- An object, its members by key.
  | object (members : List (String × Json))
  deriving Repr, Inhabited

namespace Json

/-- The value of a natural number of one word; a larger one becomes the largest. -/
def ofNat (n : Nat) : Json :=
  if h : n < 0x10000000000000000 then .number (.ofWord n h)
  else .number (.integer (0xFFFFFFFFFFFFFFFF) (by omega))

/-- Adds a member to members sorted by key; a member of the same key is replaced. -/
def insert (key : String) (v : Json) : List (String × Json) → List (String × Json)
  | [] => [(key, v)]
  | (k, w) :: rest =>
    if key < k then (key, v) :: (k, w) :: rest
    else if key = k then (key, v) :: rest
    else (k, w) :: insert key v rest

/-- The object with the given members; of two with one key the later counts. -/
def ofMembers (members : List (String × Json)) : Json :=
  .object (members.foldl (fun acc m => insert m.1 m.2 acc) [])

/-- The member with a given key among the members of an object. -/
def lookup? (key : String) (members : List (String × Json)) : Option Json :=
  (members.find? fun m => m.1 == key).map Prod.snd

/-- The member of an object with a given key; other values have none. -/
def field? (key : String) : Json → Option Json
  | .object members => lookup? key members
  | _ => none

mutual

/-- How deep arrays and objects are nested: zero for a value that is neither. -/
def nesting : Json → Nat
  | .array items => nestingItems items + 1
  | .object members => nestingMembers members + 1
  | _ => 0

/-- The deepest nesting among items. -/
def nestingItems : List Json → Nat
  | [] => 0
  | v :: rest => max (nesting v) (nestingItems rest)

/-- The deepest nesting among members. -/
def nestingMembers : List (String × Json) → Nat
  | [] => 0
  | (_, v) :: rest => max (nesting v) (nestingMembers rest)

end

mutual

/-- Whether the members of every object are strictly sorted by key. -/
def WellFormed : Json → Prop
  | .array items => WellFormedItems items
  | .object members => members.Pairwise (fun a b => a.1 < b.1) ∧ WellFormedMembers members
  | _ => True

/-- Whether every item is well formed. -/
def WellFormedItems : List Json → Prop
  | [] => True
  | v :: rest => WellFormed v ∧ WellFormedItems rest

/-- Whether every member is well formed. -/
def WellFormedMembers : List (String × Json) → Prop
  | [] => True
  | (_, v) :: rest => WellFormed v ∧ WellFormedMembers rest

end

mutual

/-- Whether no number in a value is a binary fraction. -/
def Integral : Json → Prop
  | .number (.fraction _) => False
  | .array items => IntegralItems items
  | .object members => IntegralMembers members
  | _ => True

/-- Whether every item is integral. -/
def IntegralItems : List Json → Prop
  | [] => True
  | v :: rest => Integral v ∧ IntegralItems rest

/-- Whether every member is integral. -/
def IntegralMembers : List (String × Json) → Prop
  | [] => True
  | (_, v) :: rest => Integral v ∧ IntegralMembers rest

end

end Json

end Gateway
