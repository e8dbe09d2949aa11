import Gateway.Json.Record
import Gateway.Proofs.Json.Fuel
import Gateway.Proofs.Json.Showing

/-!
# How Arrays and Objects Are Laid Out

A value says less than the text that it was read from. An object has forgotten in which order its
members were, and of the members with one key it has kept the last. Who reads a text by other means
sees all of them, so to compare the two one has to say what stood in the text. `ItemsAt` and
`MembersAt` list the items and members as they are written, every one of them and in their order.
What was read as an array has just these items (`exists_itemsAt`), and what was read as an object
was put together from these members (`exists_membersAt`).

The keys alone can be had from a text without reading any value, by passing over what belongs to
them (`keys`). They are the keys as they are meant: whatever is escaped in them has been taken back.

## Main definitions

* `Begins`: The octet that a value begins with.
* `ItemsAt`, `MembersAt`, `ObjectAt`: Items and members, as they are written.
* `keys`: The keys of the object that a text stands for, as they are written.

## Theorems

* `begins_of_readValue`: A value that was read begins with its octet.
* `exists_itemsAt`, `exists_membersAt`, `exists_objectAt`: What stands where something was read.
* `ObjectAt.keys`: The keys are those of the members.
* `mem_keys_iff`: They are the keys of the value.
-/

namespace Gateway

namespace Json

/-! ## Items -/

/-- Items stand at the front of some octets, up to the bracket that closes them. Before all of them
    but the first stands a comma. -/
inductive ItemsAt (depth : Nat) : Bool → Bytes → List Json → Bytes → Prop
  | nil {first : Bool} {bs rest : Bytes} (hclose : skipBlanks bs = ascii ']' :: rest) :
      ItemsAt depth first bs [] rest
  | cons {first : Bool} {bs front next rest : Bytes} {v : Json} {items : List Json}
      (hfront : Record.nextItem first bs = .ok (some front))
      (hvalue : readValue (fuelFor front) depth front = .ok (v, next))
      (hitems : ItemsAt depth false next items rest) : ItemsAt depth first bs (v :: items) rest

theorem exists_valueAt {fuel depth : Nat} {bs rest : Bytes} {v : Json}
    (h : readValue fuel depth bs = .ok (v, rest)) :
    ∃ n, ValueAt n depth (skipBlanks bs) v rest := by
  cases fuel with
  | zero => cases h
  | succ n => exact ⟨n, valueAt_of_readValue h⟩

/-- No value begins with the bracket that closes an array. -/
theorem front_of_readValue {fuel depth : Nat} {bs rest : Bytes} {v : Json}
    (h : readValue fuel depth bs = .ok (v, rest)) :
    ∃ b inside, skipBlanks bs = b :: inside ∧ ¬ (b == ascii ']') = true := by
  rcases exists_valueAt h with ⟨n, hvalue⟩
  generalize skipBlanks bs = front at hvalue
  cases hvalue with
  | number hstarts _ => exact ⟨_, _, rfl, not_beq_of_startsNumber _ ']' hstarts rfl⟩
  | null _ | yes _ | no _ | string _ | noItems _ | items _ _ _ | noMembers _ | members _ _ _ =>
      exact ⟨_, _, rfl, by decide⟩

/-- A value that follows is an item, if it is the first one or if there is a comma before it. -/
theorem nextItem_of_readValue {fuel depth : Nat} {bs rest : Bytes} {v : Json}
    (h : readValue fuel depth bs = .ok (v, rest)) :
    Record.nextItem true bs = .ok (some (skipBlanks bs))
      ∧ ∀ next, skipBlanks next = ascii ',' :: bs →
        Record.nextItem false next = .ok (some (skipBlanks bs)) := by
  rcases front_of_readValue h with ⟨b, inside, hblanks, hb⟩
  constructor
  · rw [Record.nextItem, hblanks]
    simp only [if_neg hb, if_true]
  · intro next hnext
    have hcomma : ¬ (ascii ',' == ascii ']') = true := by decide
    rw [Record.nextItem, hnext]
    simp only [if_neg hcomma, Bool.false_eq_true, if_false, beq_self_eq_true, if_true, hblanks,
      if_neg hb]

/-- What was read as an array has the items that stand there. -/
theorem exists_itemsAt {fuel depth : Nat} {acc : List Json} {bs rest : Bytes} {v : Json}
    (h : readItems fuel depth acc bs = .ok (v, rest)) :
    ∃ items, v = array (acc.reverse ++ items) ∧ ItemsAt depth true bs items rest
      ∧ ∀ next, skipBlanks next = ascii ',' :: bs → ItemsAt depth false next items rest := by
  induction fuel generalizing acc bs with
  | zero => cases h
  | succ fuel ih =>
      rcases readItems_first h with ⟨w, next, c, more, hvalue, hend, hlast⟩
      rcases nextItem_of_readValue hvalue with ⟨hfirst, hother⟩
      have hfuel := readValue_fuelFor ((readValue_skipBlanks fuel depth bs).trans hvalue)
      -- What stands behind the first item does not depend on what stands before it.
      obtain ⟨items, rfl, hitems⟩ :
          ∃ items, v = array (acc.reverse ++ w :: items) ∧ ItemsAt depth false next items rest := by
        rcases hlast with ⟨rfl, rfl, rfl⟩ | ⟨rfl, hmore⟩
        · exact ⟨[], by rw [List.reverse_cons], .nil hend⟩
        · rcases ih hmore with ⟨items, rfl, -, hbehind⟩
          exact ⟨items, by rw [List.reverse_cons, List.append_assoc, List.singleton_append],
            hbehind next hend⟩
      exact ⟨w :: items, rfl, .cons hfirst hfuel hitems,
        fun before hbefore => .cons (hother before hbefore) hfuel hitems⟩

/-! ## Members -/

/-- Members stand at the front of some octets, up to the brace that closes them. There is at least
    one, and behind all of them but the last stands a comma. -/
inductive MembersAt (depth : Nat) : Bytes → List (String × Json) → Bytes → Prop
  | last {bs after next rest : Bytes} {key : String} {v : Json} (hkey : KeyAt bs key after)
      (hvalue : readValue (fuelFor after) depth after = .ok (v, next))
      (hend : skipBlanks next = ascii '}' :: rest) : MembersAt depth bs [(key, v)] rest
  | more {bs after next behind rest : Bytes} {key : String} {v : Json}
      {members : List (String × Json)} (hkey : KeyAt bs key after)
      (hvalue : readValue (fuelFor after) depth after = .ok (v, next))
      (hend : skipBlanks next = ascii ',' :: behind)
      (hmembers : MembersAt depth behind members rest) :
      MembersAt depth bs ((key, v) :: members) rest

/-- What was read as an object was put together from the members that stand there. -/
theorem exists_membersAt {fuel depth : Nat} {acc : List (String × Json)} {bs rest : Bytes}
    {v : Json} (h : readMembers fuel depth acc bs = .ok (v, rest)) :
    ∃ members, MembersAt depth bs members rest
      ∧ v = object (members.foldl (fun acc m => insert m.1 m.2 acc) acc) := by
  induction fuel generalizing acc bs with
  | zero => cases h
  | succ fuel ih =>
      rcases readMembers_first h with ⟨key, after, w, next, c, more, hkey, hvalue, hend, hlast⟩
      rcases hlast with ⟨rfl, rfl, rfl⟩ | ⟨rfl, hmore⟩
      · exact ⟨[(key, w)], .last hkey (readValue_fuelFor hvalue) hend, rfl⟩
      · rcases ih hmore with ⟨members, hmembers, rfl⟩
        exact ⟨(key, w) :: members, .more hkey (readValue_fuelFor hvalue) hend hmembers, rfl⟩

/-- Every member takes an octet. -/
theorem MembersAt.length {depth : Nat} {bs rest : Bytes} {members : List (String × Json)}
    (h : MembersAt depth bs members rest) : members.length ≤ bs.length := by
  induction h with
  | last hkey _ _ =>
      have hafter := hkey.length
      simp only [List.length_cons, List.length_nil]
      omega
  | more hkey hvalue hend _ ih =>
      have hafter := hkey.length
      have hnext := length_of_readValue hvalue
      have hbehind := length_of_skipBlanks hend
      rw [List.length_cons]
      omega

/-! ## Values -/

/-- The octet that a value begins with. -/
def Begins (b : UInt8) : Json → Prop
  | null => b = ascii 'n'
  | bool true => b = ascii 't'
  | bool false => b = ascii 'f'
  | number _ => startsNumber b = true
  | string _ => b = ascii '"'
  | array _ => b = ascii '['
  | object _ => b = ascii '{'

/-- A value that was read begins with its octet. -/
theorem begins_of_readValue {fuel depth : Nat} {bs rest : Bytes} {v : Json}
    (h : readValue fuel depth bs = .ok (v, rest)) :
    ∃ b inside, skipBlanks bs = b :: inside ∧ Begins b v := by
  rcases exists_valueAt h with ⟨n, hvalue⟩
  generalize skipBlanks bs = front at hvalue
  cases hvalue with
  | number hstarts _ => exact ⟨_, _, rfl, hstarts⟩
  | items _ _ hread =>
      rcases exists_itemsAt hread with ⟨items, rfl, -⟩
      exact ⟨_, _, rfl, rfl⟩
  | members _ _ hread =>
      rcases exists_membersAt hread with ⟨members, -, rfl⟩
      exact ⟨_, _, rfl, rfl⟩
  | null _ | yes _ | no _ | string _ | noItems _ | noMembers _ => exact ⟨_, _, rfl, rfl⟩

/-- Behind a bracket there is another one, or there are items. -/
theorem readValue_bracket {fuel depth : Nat} {inside rest : Bytes} {v : Json}
    (h : readValue (fuel + 1) depth (ascii '[' :: inside) = .ok (v, rest)) :
    ∃ d items, depth = d + 1 ∧ v = array items ∧ ItemsAt d true inside items rest := by
  have hvalue := valueAt_of_readValue h
  have hfront : skipBlanks (ascii '[' :: inside) = ascii '[' :: inside := rfl
  rw [hfront] at hvalue
  generalize hb : ascii '[' = b at hvalue
  cases hvalue with
  | null _ | yes _ | no _ | string _ | noMembers _ | members _ _ _ => exact absurd hb (by decide)
  | number hstarts _ => exact absurd (hb ▸ hstarts) (by decide)
  | noItems hclose => exact ⟨_, [], rfl, rfl, .nil hclose⟩
  | items _ _ hread =>
      rcases exists_itemsAt hread with ⟨items, rfl, hitems, -⟩
      exact ⟨_, items, rfl, rfl, hitems⟩

/-! ## Keys -/

/-- The key of the member at the front of some octets, and what follows its colon. -/
def key? (bs : Bytes) : Option (String × Bytes) :=
  match skipBlanks bs with
  | [] => none
  | q :: inside =>
    if q == ascii '"' then do
      let (key, colon) ← (readString inside).toOption
      let after ← (readColon colon).toOption
      pure (key, after)
    else none

/-- The keys of the members at the front of some octets. Their values are passed over. -/
def keysFrom : Nat → Bytes → List String
  | 0, _ => []
  | fuel + 1, bs =>
    match key? bs with
    | none => []
    | some (key, after) =>
      key :: match (skipValue (fuelFor after) after).toOption.map skipBlanks with
        | some (c :: more) => if c == ascii ',' then keysFrom fuel more else []
        | _ => []

/-- The keys in the outermost braces of a text: as they are written, in their order and each as
    often as it is there, but with nothing escaped in them any more. -/
def keys (bs : Bytes) : List String :=
  match skipBlanks bs with
  | [] => []
  | b :: inside => if b == ascii '{' then keysFrom inside.length inside else []

theorem key?_of_keyAt {bs after : Bytes} {key : String} (h : KeyAt bs key after) :
    key? bs = some (key, after) := by
  rcases h with ⟨inside, colon, hquote, hread, hcolon⟩
  rw [key?, hquote]
  simp only [beq_self_eq_true, if_true, hread, hcolon, Except.toOption, Option.bind_eq_bind,
    Option.bind_some, Option.pure_def]

/-- The keys are those of the members that stand there. -/
theorem keysFrom_of_membersAt {fuel depth : Nat} {bs rest : Bytes} {members : List (String × Json)}
    (h : MembersAt depth bs members rest) (hfuel : members.length ≤ fuel) :
    keysFrom fuel bs = members.map Prod.fst := by
  induction h generalizing fuel with
  | last hkey hvalue hend =>
      rw [List.length_singleton] at hfuel
      obtain ⟨fuel, rfl⟩ : ∃ n, fuel = n + 1 := ⟨fuel - 1, by omega⟩
      have hbrace : ¬ (ascii '}' == ascii ',') = true := by decide
      rw [keysFrom]
      simp only [key?_of_keyAt hkey, (passedOver _).value hvalue, Except.toOption, Option.map_some,
        hend, if_neg hbrace, List.map_cons, List.map_nil]
  | more hkey hvalue hend _ ih =>
      rw [List.length_cons] at hfuel
      obtain ⟨fuel, rfl⟩ : ∃ n, fuel = n + 1 := ⟨fuel - 1, by omega⟩
      rw [keysFrom]
      simp only [key?_of_keyAt hkey, (passedOver _).value hvalue, Except.toOption, Option.map_some,
        hend, beq_self_eq_true, if_true, ih (Nat.le_of_succ_le_succ hfuel), List.map_cons]

theorem keysFrom_of_closed {bs rest : Bytes} (fuel : Nat)
    (h : skipBlanks bs = ascii '}' :: rest) : keysFrom fuel bs = [] := by
  have hquote : ¬ (ascii '}' == ascii '"') = true := by decide
  cases fuel with
  | zero => rfl
  | succ fuel =>
      rw [keysFrom, key?, h]
      simp only [if_neg hquote]

/-- An object is written with some members, and with these keys. -/
structure ObjectAt (depth : Nat) (bs inside : Bytes) (members : List (String × Json))
    (rest : Bytes) : Prop where
  front : skipBlanks bs = ascii '{' :: inside
  body : members = [] ∧ skipBlanks inside = ascii '}' :: rest
    ∨ (∃ c more, skipBlanks inside = c :: more ∧ ¬ (c == ascii '}') = true)
      ∧ MembersAt depth inside members rest

theorem ObjectAt.keys {depth : Nat} {bs inside rest : Bytes} {members : List (String × Json)}
    (h : ObjectAt depth bs inside members rest) : keys bs = members.map Prod.fst := by
  rw [Json.keys, h.front]
  simp only [beq_self_eq_true, if_true]
  rcases h.body with ⟨rfl, hclose⟩ | ⟨-, hmembers⟩
  · exact keysFrom_of_closed inside.length hclose
  · exact keysFrom_of_membersAt hmembers hmembers.length

/-- What begins with a brace is an object, and was put together from the members in the text. -/
theorem exists_objectAt {fuel depth : Nat} {bs inside rest : Bytes} {v : Json}
    (hfront : skipBlanks bs = ascii '{' :: inside)
    (h : readValue fuel depth bs = .ok (v, rest)) :
    ∃ d members, depth = d + 1 ∧ v = ofMembers members
      ∧ ObjectAt d bs inside members rest := by
  rcases exists_fuel hfront h with ⟨n, hvalue⟩
  rcases readValue_brace hvalue with ⟨d, c, more, rfl, hinside, ⟨rfl, rfl, rfl⟩ | ⟨hc, hmembers⟩⟩
  · exact ⟨d, [], rfl, rfl, hfront, Or.inl ⟨rfl, hinside⟩⟩
  · rcases exists_membersAt hmembers with ⟨members, hat, rfl⟩
    exact ⟨d, members, rfl, rfl, hfront, Or.inr ⟨⟨c, more, hinside, mt beq_iff_eq.mp hc⟩, hat⟩⟩

theorem isSome_lookup?_foldl_insert {key : String} (members acc : List (String × Json)) :
    (lookup? key (members.foldl (fun acc m => insert m.1 m.2 acc) acc)).isSome
      ↔ key ∈ members.map Prod.fst ∨ (lookup? key acc).isSome := by
  induction members generalizing acc with
  | nil => simp only [List.foldl_nil, List.map_nil, List.not_mem_nil, false_or]
  | cons m members ih =>
      rw [List.foldl_cons, ih, List.map_cons, List.mem_cons]
      by_cases hkey : m.1 = key
      · rw [hkey, lookup?_insert_self]
        simp only [Option.isSome_some, or_true, true_or]
      · rw [lookup?_insert_of_ne hkey]
        simp only [Ne.symm hkey, false_or]

/-- The keys in a text are those of the value that it stands for. Of what is no object there are
    none. -/
theorem mem_keys_iff {bs : Bytes} {v : Json} (h : parse bs = .ok v) (key : String) :
    key ∈ keys bs ↔ (v.field? key).isSome := by
  rcases Record.complete_ok h with ⟨rest, hvalue⟩
  rcases begins_of_readValue hvalue with ⟨b, inside, hfront, hbegins⟩
  by_cases hb : b = ascii '{'
  · subst hb
    rcases exists_objectAt hfront hvalue with ⟨d, members, -, rfl, hobject⟩
    have hnone : (lookup? key []).isSome = false := rfl
    rw [hobject.keys, ofMembers, field?, isSome_lookup?_foldl_insert, hnone]
    simp only [Bool.false_eq_true, or_false]
  · have hkeys : keys bs = [] := by
      rw [keys, hfront]
      simp only [if_neg (mt beq_iff_eq.mp hb)]
    have hfield : v.field? key = none := by
      cases v with
      | object members => exact absurd hbegins hb
      | null | bool b | number n | string s | array items => rfl
    rw [hkeys, hfield]
    exact iff_of_false List.not_mem_nil Bool.false_ne_true

-- Unlike a value, the keys tell that a member is there twice, even where one is escaped.
example : keys (utf8 "\x7b\"\\u0069d\":[\x7b\"a\":1\x7d], \"x\" : 2, \"id\":3\x7d")
    = ["id", "x", "id"] := by
  decide +kernel

end Json

end Gateway
