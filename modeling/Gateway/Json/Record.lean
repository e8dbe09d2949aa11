import Gateway.Json.Skip

/-!
# Reading records

A packet or a set of claims is a record with known fields, and it is read in two ways: straight
from text, member by member, or from a value that was read before. Both accept an object, whose
unknown members are passed over, and an array that lists the fields in order. What a field may
hold, and what it is when it is missing, is its `Kind`; the two ways of reading a kind are stated
side by side, so that whether they agree is a question about kinds.

While a record is read its fields are collected in a draft. Text may name a field twice, which is
refused as soon as the second name is read; a value cannot.

## Main definitions

* `Kind`: What a field may hold.
* `RecordField`, `Record`: The fields of a record, over a draft.
* `Record.ofText`: Reads a record from text.
* `Record.ofValue?`: Reads a record from a value.
-/

namespace Gateway

namespace Json

/-- The fault of a text that does not start with what was asked for. A number, string or word is
    read before it is refused, so a fault in it comes first. -/
def refusal (bs : Bytes) : Fault :=
  match skipBlanks bs with
  | [] => .endOfInput
  | b :: bs =>
    let after (word : String) : Fault :=
      match expect (utf8 word) bs with
      | .error e => e
      | .ok _ => .mismatched
    if b == ascii 'n' then after "ull"
    else if b == ascii 't' then after "rue"
    else if b == ascii 'f' then after "alse"
    else if b == ascii '"' then
      match readString bs with
      | .error e => e
      | .ok _ => .mismatched
    else if startsNumber b then
      match readNumber (b :: bs) with
      | .error e => e
      | .ok _ => .mismatched
    else if b == ascii '[' || b == ascii '{' then .mismatched
    else .malformed

/-- What a field may hold: how it is read from text where `depth` more brackets may be opened, how
    it is read from a value, what it is when an object has no such member, and what it is when an
    array ends before it. -/
structure Kind (β : Type) where
  ofText : Nat → Bytes → Reading β
  ofValue? : Json → Option β
  -- What a missing member means.
  missing : Option β
  -- What a missing item means.
  short : Option β

namespace Kind

/-- Reads a string, refusing anything else. -/
def readText (bs : Bytes) : Reading String :=
  match skipBlanks bs with
  | [] => .error .endOfInput
  | b :: rest => if b == ascii '"' then readString rest else .error (refusal (b :: rest))

/-- Reads the word `null`, or else what `inner` reads. -/
def readOptional {β : Type} (inner : Bytes → Reading β) (bs : Bytes) : Reading (Option β) :=
  match skipBlanks bs with
  | [] => .error .endOfInput
  | b :: rest =>
    if b == ascii 'n' then (expect (utf8 "ull") rest).map (none, ·)
    else (inner (b :: rest)).map fun (v, bs) => (some v, bs)

/-- Reads `true` or `false`. -/
def readFlag (bs : Bytes) : Reading Bool :=
  match skipBlanks bs with
  | [] => .error .endOfInput
  | b :: rest =>
    if b == ascii 't' then (expect (utf8 "rue") rest).map (true, ·)
    else if b == ascii 'f' then (expect (utf8 "alse") rest).map (false, ·)
    else .error (refusal (b :: rest))

/-- Reads an integer of one word without sign. -/
def readWord (bs : Bytes) : Reading Nat :=
  match skipBlanks bs with
  | [] => .error .endOfInput
  | b :: rest =>
    if startsNumber b then
      match readNumber (b :: rest) with
      | .error e => .error e
      | .ok (.integer n _, rest) => if 0 ≤ n then .ok (n.toNat, rest) else .error .mismatched
      | .ok (.fraction _, _) => .error .mismatched
    else .error (refusal (b :: rest))

/-- The text in a value. -/
def text? : Json → Option String
  | .string s => some s
  | _ => none

/-- The texts in a list of them. -/
def texts? : Json → Option (List String)
  | .array items => items.mapM text?
  | _ => none

/-- The unsigned integer in a value. -/
def word? : Json → Option Nat
  | .number (.integer n _) => if 0 ≤ n then some n.toNat else none
  | _ => none

/-- A string that has to be there. -/
def text : Kind String :=
  ⟨fun _ => readText, text?, none, none⟩

/-- A string that is empty when missing. -/
def textOrEmpty : Kind String :=
  ⟨fun _ => readText, text?, some "", some ""⟩

/-- What a kind holds or nothing; `null` and missing are nothing. -/
def optional {β : Type} (k : Kind β) : Kind (Option β) where
  ofText depth := readOptional (k.ofText depth)
  ofValue?
    | .null => some none
    | v => (k.ofValue? v).map some
  missing := some none
  short := some none

/-- A string or nothing. -/
def optionalText : Kind (Option String) :=
  text.optional

/-- Any value; missing is `null`. -/
def any : Kind Json :=
  ⟨fun depth bs => readValue (fuelFor bs) depth bs, some, some .null, some .null⟩

/-- Any value, where `null` is a value like others and only a missing one is nothing. -/
def present : Kind (Option Json) where
  ofText depth bs := (readValue (fuelFor bs) depth bs).map fun (v, bs) => (some v, bs)
  ofValue? v := some (some v)
  missing := some none
  short := some none

/-- Any value or nothing. -/
def optionalAny : Kind (Option Json) :=
  any.optional

/-- A list of strings. -/
def texts : Kind (List String) where
  ofText depth bs :=
    match readValue (fuelFor bs) depth bs with
    | .error e => .error e
    | .ok (v, rest) =>
      match texts? v with
      | some ss => .ok (ss, rest)
      | none => .error .mismatched
  ofValue? := texts?
  missing := none
  short := none

/-- `true` or `false`; missing is `false`. -/
def flag : Kind Bool where
  ofText _ := readFlag
  ofValue?
    | .bool b => some b
    | _ => none
  missing := some false
  short := some false

/-- An unsigned integer of one word that has to be there. -/
def word : Kind Nat :=
  ⟨fun _ => readWord, word?, none, none⟩

/-- The same kind where an array may not end before the field. -/
def placed {β : Type} (k : Kind β) : Kind β :=
  { k with short := none }

end Kind

/-- A field of a record that is collected in a draft of type `σ`. -/
structure RecordField (σ : Type) where
  name : String
  isSet : σ → Bool
  ofText : Nat → σ → Bytes → Reading σ
  ofValue? : σ → Json → Option σ
  -- The draft when an object ends without the field.
  missing : σ → Option σ
  -- The draft when an array ends before the field.
  short : σ → Option σ

/-- The field with the given name and kind, kept in the given part of the draft. -/
def RecordField.of {σ β : Type} (name : String) (kind : Kind β) (get : σ → Option β)
    (set : σ → β → σ) : RecordField σ where
  name := name
  isSet draft := (get draft).isSome
  ofText depth draft bs := (kind.ofText depth bs).map fun (v, bs) => (set draft v, bs)
  ofValue? draft v := (kind.ofValue? v).map (set draft)
  missing draft := if (get draft).isSome then some draft else kind.missing.map (set draft)
  short draft := kind.short.map (set draft)

/-- The field with the given name and kind that is checked and not kept; of it the draft only notes
    the name. -/
def RecordField.checked {σ β : Type} (name : String) (kind : Kind β) (noted : σ → List String)
    (note : σ → String → σ) : RecordField σ where
  name := name
  isSet draft := name ∈ noted draft
  ofText depth draft bs := (kind.ofText depth bs).map fun (_, bs) => (note draft name, bs)
  ofValue? draft v := (kind.ofValue? v).map fun _ => note draft name
  missing draft := if name ∈ noted draft then some draft else kind.missing.map fun _ => draft
  short draft := kind.short.map fun _ => draft

/-- A record: its fields in order, the empty draft, and the record of a draft in which every field
    is set. -/
structure Record (σ α : Type) where
  -- The fields, in the order in which an array lists them.
  fields : List (RecordField σ)
  empty : σ
  build : σ → Option α

namespace Record

variable {σ α : Type}

/-- The field of a given name. -/
def field? (r : Record σ α) (name : String) : Option (RecordField σ) :=
  r.fields.find? fun f => f.name == name

/-- The record of a draft after the last member. -/
def finish? (r : Record σ α) (draft : σ) : Option α :=
  (r.fields.foldlM (fun d f => f.missing d) draft) >>= r.build

/-- Reads members up to the closing brace, the first of which has to be there. -/
def readMembers (r : Record σ α) (depth : Nat) : Nat → σ → Bytes → Reading σ
  | 0, _, _ => .error .malformed
  | fuel + 1, draft, bs =>
    match skipBlanks bs with
    | [] => .error .endOfInput
    | q :: bs =>
      if q != ascii '"' then .error .malformed
      else match readString bs with
        | .error e => .error e
        | .ok (key, bs) =>
          let step : Reading σ :=
            match r.field? key with
            | some f =>
              -- A member that is there twice is refused before its value is looked at.
              if f.isSet draft then .error .mismatched
              else match readColon bs with
                | .error e => .error e
                | .ok bs => f.ofText depth draft bs
            | none =>
              -- What the record has no use for is passed over, however deep it is.
              match readColon bs with
              | .error e => .error e
              | .ok bs => (skipValue (fuelFor bs) bs).map (draft, ·)
          match step with
          | .error e => .error e
          | .ok (draft, bs) =>
            match skipBlanks bs with
            | [] => .error .endOfInput
            | c :: bs =>
              if c == ascii '}' then .ok (draft, bs)
              else if c == ascii ',' then readMembers r depth fuel draft bs
              else .error .malformed

/-- Where an array stands before its next item: `none` at the closing bracket. -/
def nextItem (first : Bool) (bs : Bytes) : Except Fault (Option Bytes) :=
  match skipBlanks bs with
  | [] => .error .endOfInput
  | c :: rest =>
    if c == ascii ']' then .ok none
    else if first then .ok (some (c :: rest))
    else if c == ascii ',' then
      match skipBlanks rest with
      | [] => .error .endOfInput
      | d :: rest => if d == ascii ']' then .error .malformed else .ok (some (d :: rest))
    else .error .malformed

/-- Reads the items of an array as the given fields, in order. -/
def readItems (depth : Nat) : List (RecordField σ) → Bool → σ → Bytes → Reading σ
  | [], _, draft, bs => .ok (draft, bs)
  | f :: fields, first, draft, bs =>
    match nextItem first bs with
    | .error e => .error e
    | .ok none =>
      match f.short draft with
      | some draft => readItems depth fields first draft bs
      | none => .error .mismatched
    | .ok (some bs) =>
      match f.ofText depth draft bs with
      | .error e => .error e
      | .ok (draft, bs) => readItems depth fields false draft bs

/-- Reads the closing bracket of an array whose fields are all read. -/
def closeArray (bs : Bytes) : Except Fault Bytes :=
  match skipBlanks bs with
  | [] => .error .endOfInput
  | c :: rest => if c == ascii ']' then .ok rest else .error .malformed

/-- The record of a draft, or the fault of a missing field. -/
def conclude (record : Option α) (bs : Bytes) : Reading α :=
  match record with
  | some v => .ok (v, bs)
  | none => .error .mismatched

/-- Reads a record from text in which `depth` more brackets may be opened. -/
def read (r : Record σ α) (depth : Nat) (bs : Bytes) : Reading α :=
  match skipBlanks bs, depth with
  | [], _ => .error .endOfInput
  | b :: rest, depth + 1 =>
    if b == ascii '{' then
      match skipBlanks rest with
      | [] => .error .endOfInput
      | c :: after =>
        if c == ascii '}' then conclude (r.finish? r.empty) after
        else match r.readMembers depth rest.length r.empty rest with
          | .error e => .error e
          | .ok (draft, bs) => conclude (r.finish? draft) bs
    else if b == ascii '[' then
      match readItems depth r.fields true r.empty rest with
      | .error e => .error e
      | .ok (draft, bs) =>
        -- What is missing is reported before what is left over.
        match r.build draft with
        | none => .error .mismatched
        | some v => (closeArray bs).map (v, ·)
    else .error (refusal (b :: rest))
  | b :: rest, 0 =>
    if b == ascii '{' || b == ascii '[' then .error .malformed else .error (refusal (b :: rest))

/-- Reads a record from a whole text. -/
def ofText (r : Record σ α) (bs : Bytes) : Except Fault α :=
  complete (r.read maxNesting bs)

/-- Reads the members of an object into the draft; unknown ones are passed over. -/
def takeMembers (r : Record σ α) : σ → List (String × Json) → Option σ
  | draft, [] => some draft
  | draft, (key, v) :: rest =>
    match r.field? key with
    | some f => (f.ofValue? draft v) >>= fun draft => takeMembers r draft rest
    | none => takeMembers r draft rest

/-- Reads the items of an array into the draft, in the order of the fields. -/
def takeItems : List (RecordField σ) → σ → List Json → Option σ
  | [], draft, [] => some draft
  | [], _, _ :: _ => none
  | f :: fields, draft, [] => (f.short draft) >>= fun draft => takeItems fields draft []
  | f :: fields, draft, v :: rest =>
    (f.ofValue? draft v) >>= fun draft => takeItems fields draft rest

/-- Reads a record from a value. -/
def ofValue? (r : Record σ α) : Json → Option α
  | .object members => (r.takeMembers r.empty members) >>= r.finish?
  | .array items => (takeItems r.fields r.empty items) >>= r.build
  | _ => none

end Record

end Json

end Gateway
