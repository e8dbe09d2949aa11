import Gateway.Proofs.Json.Kinds
import Gateway.Proofs.Json.Order

/-!
# Records That Are Read Alike

A record is read straight from text or from a value. The one reader takes the members as they come,
passes over what it does not know, refuses a field that is there a second time and reads items until
the fields are used up; the other has a sorted object or a list before it. Where the fields agree,
so does the record (`read_eq_ofValue?`): both readers refuse, or both give the same record and leave
the same octets.

One thing is needed of the text, and it is that no field is there twice. A value has only the last
of them, and nothing shows that there was another. The reader of text sees both and refuses
(`read_of_repeated`), so this is the only thing that the two can differ about.

The members as they are written stand between the two readers. From text they are read as they would
be from a list, if fields were refused that are set already (`readMembers_of_membersAt`). Where none
is repeated nothing is refused for that, and then the list may be sorted.

## Main definitions

* `RecordField.Agrees`: A field reads from text what it takes from a value.
* `Record.Consistent`: All fields of a record agree and keep to themselves.
* `Record.takeOnce`: What a record makes of one member of a text.

## Theorems

* `readMembers_of_membersAt`, `readItems_of_itemsAt`: The two forms of a record, from text.
* `takeMembersOnce_eq_takeMembers`: Nothing is refused that is there once.
* `takeMembersOnce_of_repeated`: What is there twice is refused.
* `read_eq_ofValue?`, `read_of_repeated`: Text and value, side by side.
* `ofText_eq_ofValue?`, `ofText_of_repeated`: The same of whole texts.
-/

namespace Gateway

namespace Json

variable {σ α β : Type}

/-! ## Fields -/

/-- Where two readings come to the same, both fail or both have the same. -/
theorem failed_or_read {found : Reading α} {taken : Option α} {rest : Bytes}
    (h : found.toOption = taken.map (·, rest)) :
    (∃ e, found = .error e) ∧ taken = none ∨ ∃ x, found = .ok (x, rest) ∧ taken = some x := by
  cases found with
  | error e => exact Or.inl ⟨⟨e, rfl⟩, Option.map_eq_none_iff.mp h.symm⟩
  | ok pair =>
      rcases Option.map_eq_some_iff.mp h.symm with ⟨x, hx, rfl⟩
      exact Or.inr ⟨x, rfl, hx⟩

/-- From the text of a value a field reads what it takes from the value, and leaves what the value
    leaves. -/
def RecordField.Agrees (f : RecordField σ) : Prop :=
  ∀ ⦃fuel depth : Nat⦄ ⦃bs rest : Bytes⦄ ⦃v : Json⦄ (draft : σ),
    readValue fuel depth bs = .ok (v, rest) →
      (f.ofText depth draft bs).toOption = (f.ofValue? draft v).map (·, rest)

theorem RecordField.agrees_of {name : String} {k : Kind β} {get : σ → Option β} {set : σ → β → σ}
    (hk : k.Agrees) : (RecordField.of name k get set).Agrees := by
  intro fuel depth bs rest v draft hvalue
  have htext : (RecordField.of name k get set).ofText depth draft bs
      = (k.ofText depth bs).map fun found => (set draft found.1, found.2) := rfl
  have hvalue? : (RecordField.of name k get set).ofValue? draft v
      = (k.ofValue? v).map (set draft) := rfl
  rw [htext, hvalue?, toOption_map, hk hvalue, Option.map_map, Option.map_map]
  rfl

namespace Record

/-- The fields of a record agree and keep to themselves. -/
structure Consistent (r : Record σ α) : Prop extends r.Orderly where
  agrees {f : RecordField σ} (hf : f ∈ r.fields) : f.Agrees

/-- What a record makes of one member of a text. A field that is set is refused. -/
def takeOnce (r : Record σ α) (draft : σ) (m : String × Json) : Option σ :=
  match r.field? m.1 with
  | some f => if f.isSet draft then none else f.ofValue? draft m.2
  | none => some draft

/-- What a record makes of the members of a text. -/
def takeMembersOnce (r : Record σ α) : σ → List (String × Json) → Option σ
  | draft, [] => some draft
  | draft, m :: members => (r.takeOnce draft m).bind (takeMembersOnce r · members)

variable {r : Record σ α}

/-! ## Objects -/

section Objects

variable (consistent : r.Consistent)
include consistent

/-- The first member is taken or refused, and the rest is up to what stands behind it. -/
theorem readMembers_of_first {fuel depth : Nat} {draft : σ} {bs after next more : Bytes}
    {key : String} {v : Json} {c : UInt8} (hkey : KeyAt bs key after)
    (hvalue : readValue (fuelFor after) depth after = .ok (v, next))
    (hend : skipBlanks next = c :: more) :
    (r.readMembers depth (fuel + 1) draft bs).toOption
      = (r.takeOnce draft (key, v)).bind fun final =>
        if c == ascii '}' then some (final, more)
        else if c == ascii ',' then (r.readMembers depth fuel final more).toOption else none := by
  have hskip := (passedOver _).value hvalue
  rcases hkey with ⟨inside, colon, hquote, hread, hcolon⟩
  have hq : ¬ (ascii '"' != ascii '"') = true := by decide
  rw [readMembers, hquote, takeOnce]
  simp only [if_neg hq, hread]
  cases hfield : r.field? key with
  | none =>
      simp only [hcolon, hskip, Except.map, hend, Option.bind_some]
      split
      · rfl
      split
      · rfl
      · rfl
  | some f =>
      have hagrees := consistent.agrees (of_field?_eq_some hfield).1 draft hvalue
      simp only [hcolon]
      by_cases hset : f.isSet draft = true
      · simp only [if_pos hset]
        rfl
      simp only [if_neg hset]
      rcases failed_or_read hagrees with ⟨⟨e, hfound⟩, hnone⟩ | ⟨final, hfound, hfinal⟩
      · rw [hfound, hnone]
        rfl
      · simp only [hfound, hfinal, hend, Option.bind_some]
        split
        · rfl
        split
        · rfl
        · rfl

/-- From text the members are read as they are written. -/
theorem readMembers_of_membersAt {fuel depth : Nat} {bs rest : Bytes}
    {members : List (String × Json)} (h : MembersAt depth bs members rest)
    (hfuel : members.length ≤ fuel) (draft : σ) :
    (r.readMembers depth fuel draft bs).toOption
      = (r.takeMembersOnce draft members).map (·, rest) := by
  induction h generalizing fuel draft with
  | last hkey hvalue hend =>
      rw [List.length_singleton] at hfuel
      obtain ⟨fuel, rfl⟩ : ∃ n, fuel = n + 1 := ⟨fuel - 1, by omega⟩
      rw [readMembers_of_first consistent hkey hvalue hend]
      simp only [beq_self_eq_true, if_true, takeMembersOnce, Option.bind_fun_some,
        Option.map_eq_bind]
      rfl
  | more hkey hvalue hend _ ih =>
      rw [List.length_cons] at hfuel
      obtain ⟨fuel, rfl⟩ : ∃ n, fuel = n + 1 := ⟨fuel - 1, by omega⟩
      have hbrace : ¬ (ascii ',' == ascii '}') = true := by decide
      rw [readMembers_of_first consistent hkey hvalue hend]
      simp only [if_neg hbrace, beq_self_eq_true, if_true, ih (Nat.le_of_succ_le_succ hfuel),
        takeMembersOnce, Option.map_bind]
      rfl

end Objects

/-! ## Repetitions -/

theorem take_of_takeOnce {draft next : σ} {m : String × Json} (h : r.takeOnce draft m = some next) :
    r.take draft m = some next := by
  rw [takeOnce] at h
  rw [take]
  cases hfield : r.field? m.1 with
  | none => simpa only [hfield] using h
  | some f =>
      simp only [hfield] at h
      split at h
      · cases h
      · exact h

section Repetitions

variable (orderly : r.Orderly)
include orderly

/-- A member leaves other fields as they are. -/
theorem isSet_of_take {draft next : σ} {m : String × Json} {key : String} {f : RecordField σ}
    (h : r.take draft m = some next) (hfield : r.field? key = some f) (hne : m.1 ≠ key) :
    f.isSet next = f.isSet draft := by
  rw [take] at h
  split at h
  · rename_i g hg
    exact (apart_of_ne orderly hg hfield hne).left h
  · rw [Option.some.inj h]

/-- Where all members differ and none of them is set, none is refused for being there. -/
theorem takeMembersOnce_eq_takeMembers {draft : σ} {members : List (String × Json)}
    (hdiffer : members.Pairwise r.Differ)
    (hunset : ∀ m ∈ members, ∀ f, r.field? m.1 = some f → f.isSet draft = false) :
    r.takeMembersOnce draft members = r.takeMembers draft members := by
  induction members generalizing draft with
  | nil => rfl
  | cons m members ih =>
      rcases List.pairwise_cons.mp hdiffer with ⟨hfirst, hrest⟩
      have honce : r.takeOnce draft m = r.take draft m := by
        rw [takeOnce, take]
        cases hfield : r.field? m.1 with
        | none => rfl
        | some f => exact if_neg (Bool.eq_false_iff.mp (hunset m List.mem_cons_self f hfield))
      rw [takeMembersOnce, takeMembers_cons, honce]
      cases hnext : r.take draft m with
      | none => rfl
      | some next =>
          refine ih hrest fun m' hm' f hf => ?_
          have hne : m.1 ≠ m'.1 := fun hsame =>
            Option.some_ne_none f (hf.symm.trans (hsame ▸ hfirst m' hm' hsame))
          rw [isSet_of_take orderly hnext hf hne]
          exact hunset m' (List.mem_cons_of_mem m hm') f hf

/-- A field that is set is refused when it is there again. -/
theorem takeMembersOnce_of_isSet {draft : σ} {key : String} {f : RecordField σ}
    {members : List (String × Json)} (hfield : r.field? key = some f)
    (hset : f.isSet draft = true) (hmem : key ∈ members.map Prod.fst) :
    r.takeMembersOnce draft members = none := by
  induction members generalizing draft with
  | nil => exact absurd hmem List.not_mem_nil
  | cons m members ih =>
      rw [takeMembersOnce]
      cases hnext : r.takeOnce draft m with
      | none => rfl
      | some next =>
          by_cases hkey : m.1 = key
          · rw [takeOnce, hkey, hfield] at hnext
            simp only [if_pos hset, reduceCtorEq] at hnext
          · rw [List.map_cons, List.mem_cons] at hmem
            refine ih ?_ (hmem.resolve_left (Ne.symm hkey))
            rw [isSet_of_take orderly (take_of_takeOnce hnext) hfield hkey]
            exact hset

/-- A field that is there twice is refused. -/
theorem takeMembersOnce_of_repeated {draft : σ} {key : String} {f : RecordField σ}
    {members : List (String × Json)} (hfield : r.field? key = some f)
    (hcount : 1 < (members.map Prod.fst).count key) : r.takeMembersOnce draft members = none := by
  induction members generalizing draft with
  | nil => cases hcount
  | cons m members ih =>
      rw [takeMembersOnce]
      cases hnext : r.takeOnce draft m with
      | none => rfl
      | some next =>
          rw [List.map_cons, List.count_cons] at hcount
          by_cases hkey : m.1 = key
          · -- Here it is set, and what is left holds it once more.
            have htake := take_of_takeOnce hnext
            rw [take, hkey, hfield] at htake
            have hset := orderly.sets (of_field?_eq_some hfield).1 htake
            rw [if_pos (beq_iff_eq.mpr hkey)] at hcount
            exact takeMembersOnce_of_isSet orderly hfield hset (List.count_pos_iff.mp (by omega))
          · rw [if_neg (mt beq_iff_eq.mp hkey)] at hcount
            exact ih hcount

end Repetitions

/-! ## Arrays -/

theorem closeArray_of_nextItem {first : Bool} {bs front : Bytes}
    (h : nextItem first bs = .ok (some front)) : (closeArray bs).toOption = none := by
  rw [nextItem] at h
  rw [closeArray]
  split at h
  · cases h
  split at h
  · cases h
  · rw [if_neg ‹_›]
    rfl

/-- From text the items are read as from a list, and the bracket is where the items end. -/
theorem readItems_of_itemsAt {depth : Nat} {first : Bool} {bs rest : Bytes} {items : List Json}
    (h : ItemsAt depth first bs items rest) {fields : List (RecordField σ)}
    (hagrees : ∀ f ∈ fields, f.Agrees) (draft : σ) :
    ((readItems depth fields first draft bs).toOption.bind fun found =>
        (closeArray found.2).toOption.map (found.1, ·))
      = (takeItems fields draft items).map (·, rest) := by
  -- The reader of text goes by the fields, and the items may end before or behind them.
  induction fields generalizing first draft bs items with
  | nil =>
      rw [readItems]
      cases h with
      | nil hclose =>
          simp only [Except.toOption, Option.bind_some, closeArray, hclose, beq_self_eq_true,
            if_true, Option.map_some, takeItems]
      | cons hfront _ _ =>
          simp only [Except.toOption, Option.bind_some]
          exact congrArg (Option.map (draft, ·)) (closeArray_of_nextItem hfront)
  | cons f fields ih =>
      have hrest := fun g hg => hagrees g (List.mem_cons_of_mem f hg)
      cases h with
      | nil hclose =>
          have hnext : nextItem first bs = .ok none := by
            rw [nextItem, hclose]
            rfl
          rw [readItems, hnext, takeItems]
          cases f.short draft with
          | none => rfl
          | some next => exact ih (.nil hclose) hrest next
      | cons hfront hvalue hitems =>
          rw [readItems, hfront, takeItems]
          have hfirst := hagrees f List.mem_cons_self draft hvalue
          rcases failed_or_read hfirst with ⟨⟨e, hfound⟩, hnone⟩ | ⟨next, hfound, hnext⟩
          · simp only [hfound, hnone]
            rfl
          · simp only [hfound, hnext]
            exact ih hitems hrest next

/-! ## Records -/

theorem toOption_conclude (record : Option α) (bs : Bytes) :
    (conclude record bs).toOption = record.map (·, bs) := by
  cases record with
  | none => rfl
  | some x => rfl

/-- What is neither an object nor an array is no record, in either way. -/
theorem read_of_begins {depth : Nat} {b : UInt8} {bs inside rest : Bytes} {v : Json}
    (hfront : skipBlanks bs = b :: inside) (hbegins : Begins b v) (hbrace : b ≠ ascii '{')
    (hbracket : b ≠ ascii '[') :
    (r.read (depth + 1) bs).toOption = (r.ofValue? v).map (·, rest) := by
  rw [read.eq_def]
  simp only [hfront, if_neg (mt beq_iff_eq.mp hbrace), if_neg (mt beq_iff_eq.mp hbracket)]
  cases v with
  | object members => exact absurd hbegins hbrace
  | array items => exact absurd hbegins hbracket
  | null | bool _ | number _ | string _ => rfl

theorem toOption_complete (reading : Reading α) :
    (complete reading).toOption
      = reading.toOption.bind fun found =>
        if (skipBlanks found.2).isEmpty then some found.1 else none := by
  cases reading with
  | error e => rfl
  | ok found =>
      rw [complete]
      split
      · simp only [Except.toOption, Option.bind_some, if_pos ‹_›]
      · simp only [Except.toOption, Option.bind_some, if_neg ‹_›]

section Records

variable (consistent : r.Consistent)
include consistent

/-- An object is read from text as its members are, one after another. -/
theorem read_of_objectAt {depth : Nat} {bs inside rest : Bytes} {members : List (String × Json)}
    (h : ObjectAt depth bs inside members rest) :
    (r.read (depth + 1) bs).toOption
      = ((r.takeMembersOnce r.empty members).bind r.finish?).map (·, rest) := by
  rw [read.eq_def]
  simp only [h.front, beq_self_eq_true, if_true]
  rcases h.body with ⟨rfl, hclose⟩ | ⟨⟨c, more, hinside, hc⟩, hmembers⟩
  · rw [hclose]
    simp only [beq_self_eq_true, if_true]
    exact toOption_conclude _ rest
  · have hread := readMembers_of_membersAt consistent hmembers hmembers.length r.empty
    rw [hinside]
    simp only [if_neg hc]
    rcases failed_or_read hread with ⟨⟨e, hfound⟩, hnone⟩ | ⟨final, hfound, hfinal⟩
    · rw [hfound, hnone]
      rfl
    · rw [hfound, hfinal]
      exact toOption_conclude _ rest

/-- An array is read from text as its items are, and no item may be left over. -/
theorem read_of_itemsAt {depth : Nat} {bs inside rest : Bytes} {items : List Json}
    (hfront : skipBlanks bs = ascii '[' :: inside) (h : ItemsAt depth true inside items rest) :
    (r.read (depth + 1) bs).toOption
      = ((takeItems r.fields r.empty items).bind r.build).map (·, rest) := by
  have hbrace : ¬ (ascii '[' == ascii '{') = true := by decide
  have hread := readItems_of_itemsAt h (fun _ => consistent.agrees) r.empty
  rw [read.eq_def]
  simp only [hfront, if_neg hbrace, beq_self_eq_true, if_true]
  cases hfound : readItems depth r.fields true r.empty inside with
  | error e =>
      rw [hfound] at hread
      rw [Option.map_eq_none_iff.mp hread.symm]
      rfl
  | ok found =>
      rw [hfound] at hread
      replace hread : (closeArray found.2).toOption.map (found.1, ·)
        = (takeItems r.fields r.empty items).map (·, rest) := hread
      cases hclose : closeArray found.2 with
      | error e =>
          rw [hclose] at hread
          rw [Option.map_eq_none_iff.mp hread.symm]
          simp only [hclose]
          cases r.build found.1 with
          | none => rfl
          | some x => rfl
      | ok after =>
          -- Only now does it count whether the record is complete.
          rw [hclose] at hread
          rcases Option.map_eq_some_iff.mp hread.symm with ⟨final, hfinal, hsame⟩
          cases hsame
          rw [hfinal]
          simp only [hclose, Option.bind_some]
          cases r.build found.1 with
          | none => rfl
          | some x => rfl

/-- From the text of a value a record reads what it takes from the value, unless a field is there
    twice. -/
theorem read_eq_ofValue? {fuel depth : Nat} {bs rest : Bytes} {v : Json}
    (hvalue : readValue fuel (depth + 1) bs = .ok (v, rest))
    (hcount : ∀ f ∈ r.fields, (keys bs).count f.name ≤ 1) :
    (r.read (depth + 1) bs).toOption = (r.ofValue? v).map (·, rest) := by
  rcases begins_of_readValue hvalue with ⟨b, inside, hfront, hbegins⟩
  by_cases hbrace : b = ascii '{'
  · subst hbrace
    rcases exists_objectAt hfront hvalue with ⟨d, members, hd, rfl, hobject⟩
    obtain rfl := Nat.succ.inj hd
    rw [hobject.keys] at hcount
    have hdiffer := pairwise_differ_of_count hcount
    have hfresh : ∀ m ∈ members, ∀ f, r.field? m.1 = some f → f.isSet r.empty = false :=
      fun m _ f hf => consistent.fresh (of_field?_eq_some hf).1
    rw [read_of_objectAt consistent hobject,
      takeMembersOnce_eq_takeMembers consistent.toOrderly hdiffer hfresh, ofMembers, ofValue?,
      takeMembers_ofMembers consistent.toOrderly hdiffer]
    rfl
  by_cases hbracket : b = ascii '['
  · subst hbracket
    rcases exists_fuel hfront hvalue with ⟨n, hvalue⟩
    rcases readValue_bracket hvalue with ⟨d, items, hd, rfl, hitems⟩
    obtain rfl := Nat.succ.inj hd
    exact read_of_itemsAt consistent hfront hitems
  · exact read_of_begins hfront hbegins hbrace hbracket

/-- A record in which a field is there twice is refused. -/
theorem read_of_repeated {fuel depth : Nat} {bs rest : Bytes} {v : Json} {f : RecordField σ}
    (hvalue : readValue fuel (depth + 1) bs = .ok (v, rest)) (hf : f ∈ r.fields)
    (hcount : 1 < (keys bs).count f.name) : (r.read (depth + 1) bs).toOption = none := by
  rcases begins_of_readValue hvalue with ⟨b, inside, hfront, -⟩
  by_cases hbrace : b = ascii '{'
  · subst hbrace
    rcases exists_objectAt hfront hvalue with ⟨d, members, hd, rfl, hobject⟩
    obtain rfl := Nat.succ.inj hd
    -- The field that is found under a name is the first one of that name.
    obtain ⟨g, hg⟩ : ∃ g, r.field? f.name = some g :=
      Option.isSome_iff_exists.mp (List.find?_isSome.mpr ⟨f, hf, beq_self_eq_true _⟩)
    rw [hobject.keys] at hcount
    rw [read_of_objectAt consistent hobject,
      takeMembersOnce_of_repeated consistent.toOrderly hg hcount]
    rfl
  · rw [keys, hfront] at hcount
    simp only [if_neg (mt beq_iff_eq.mp hbrace), List.count_nil, Nat.not_lt_zero] at hcount

/-! ## Texts -/

/-- A text that stands for a value is read as the record that is taken from the value, unless a
    field is there twice. -/
theorem ofText_eq_ofValue? {bs : Bytes} {v : Json} (h : parse bs = .ok v)
    (hcount : ∀ f ∈ r.fields, (keys bs).count f.name ≤ 1) :
    (r.ofText bs).toOption = r.ofValue? v := by
  rcases complete_ok h with ⟨rest, hvalue⟩
  have hrest : (skipBlanks rest).isEmpty = true := by
    rw [parse, hvalue, complete] at h
    by_contra hmore
    rw [if_neg hmore] at h
    cases h
  have hread : (r.read maxNesting bs).toOption = (r.ofValue? v).map (·, rest) :=
    read_eq_ofValue? consistent hvalue hcount
  rw [ofText, toOption_complete, hread]
  cases r.ofValue? v with
  | none => rfl
  | some x => exact if_pos hrest

theorem ofText_of_repeated {bs : Bytes} {v : Json} {f : RecordField σ} (h : parse bs = .ok v)
    (hf : f ∈ r.fields) (hcount : 1 < (keys bs).count f.name) : (r.ofText bs).toOption = none := by
  rcases complete_ok h with ⟨rest, hvalue⟩
  have hread : (r.read maxNesting bs).toOption = none :=
    read_of_repeated consistent hvalue hf hcount
  rw [ofText, toOption_complete, hread]
  rfl

end Records

end Record

end Json

end Gateway
