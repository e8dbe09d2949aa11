import Gateway.Json.Record
import Gateway.Proofs.Json.RoundTrip

/-!
# Records Are Read Back

A record is read straight from text, member by member, without a value in between. The text that it
was written to is that of an object, so what has to be shown is that each field reads from the text
of its member what it would take from the value. This is `Kind.Faithful`, and it is a question about
kinds alone. A kind that allows for `null` looks at one octet to tell it from everything else, and
no other value begins with that octet (`eq_null_of_write`).

What a record makes of its members one after another is the relation `Record.Fills`. It asks of each
member that it is a field, that it was not there before, and that it is read; and whatever the
record, members that fill a draft are read from their text to that draft
(`Record.readMembers_written`).

## Main definitions

* `Writable`: A value that can be written and read back.
* `Kind.Faithful`: A kind reads from the text of a value what it takes from the value.
* `Record.Fills`: Members fill a draft one after another.

## Theorems

* `eq_null_of_write`: Only `null` begins like `null`.
* `faithful_text`, `faithful_optional`, `faithful_any`, `faithful_present`, `faithful_flag`: The
  kinds of the fields of packets.
* `Record.ofText_written`: A record is read back from the text of its members.
-/

namespace Gateway

namespace Json

/-! ## Values -/

/-- A value that can be written and read back where so many brackets may be opened. -/
structure Writable (depth : Nat) (v : Json) : Prop where
  /-- It is a value as values are: the members of its objects are sorted. -/
  wellFormed : v.WellFormed
  /-- Its numbers are integers. -/
  integral : v.Integral
  /-- It is not nested too deep. -/
  nesting : v.nesting ≤ depth

/-- Members that can be written and read back, taken together. -/
theorem writable_members (depth : Nat) (members : List (String × Json))
    (h : ∀ m ∈ members, m.2.Writable depth) :
    WellFormedMembers members ∧ IntegralMembers members ∧ nestingMembers members ≤ depth := by
  induction members with
  | nil => exact ⟨trivial, trivial, Nat.zero_le _⟩
  | cons m members ih =>
      have hm := h m List.mem_cons_self
      rcases ih fun u hu => h u (List.mem_cons_of_mem m hu) with ⟨hwell, hint, hnesting⟩
      exact ⟨⟨hm.wellFormed, hwell⟩, ⟨hm.integral, hint⟩, Nat.max_le.mpr ⟨hm.nesting, hnesting⟩⟩

/-! ## Kinds -/

/-- A kind reads from the text of a value what it takes from the value, and leaves what stands
    behind it. -/
def Kind.Faithful {β : Type} (k : Kind β) : Prop :=
  ∀ (v : Json) (x : β) (depth : Nat) (rest : Bytes), v.WellFormed → v.Integral →
    v.nesting ≤ depth → EndsNumber rest → k.ofValue? v = some x →
      k.ofText depth (v.write ++ rest) = .ok (x, rest)

/-- With as much fuel as the octets call for, a value is read back. -/
theorem readValue_written (v : Json) (depth : Nat) (rest : Bytes) (hwell : v.WellFormed)
    (hint : v.Integral) (hdepth : v.nesting ≤ depth) (hrest : EndsNumber rest) :
    readValue (fuelFor (v.write ++ rest)) depth (v.write ++ rest) = .ok (v, rest) := by
  refine readsBack_of_wellFormed v hwell hint _ depth rest hdepth ?_ hrest
  rw [fuelFor, List.length_append]
  omega

/-- Only `null` begins like `null`. -/
theorem eq_null_of_write (v : Json) (bs : Bytes) (hwell : v.WellFormed) (hint : v.Integral)
    (h : v.write = ascii 'n' :: bs) : v = null := by
  have hread := readValue_written v v.nesting [] hwell hint (Nat.le_refl _) endsNumber_nil
  rw [h, List.append_nil, fuelFor] at hread
  -- The reader takes the octet for the beginning of the word, and knows what it will give.
  have hword : readValue (2 * (ascii 'n' :: bs).length + 2) v.nesting (ascii 'n' :: bs)
      = (expect (utf8 "ull") bs).map (null, ·) := rfl
  rw [hword] at hread
  cases hexpect : expect (utf8 "ull") bs with
  | error fault =>
      rw [hexpect] at hread
      exact Except.noConfusion rfl rfl (heq_of_eq hread)
  | ok left =>
      rw [hexpect, Except.map, Except.ok.injEq, Prod.mk.injEq] at hread
      exact hread.1.symm

theorem faithful_text : Kind.text.Faithful := by
  intro v s depth rest _ _ _ _ h
  cases v with
  | string t =>
      obtain rfl : t = s := Option.some.inj h
      have hread : Kind.readText (ascii '"' :: (t.toList.flatMap escapeChar ++ ascii '"' :: rest))
          = readString (t.toList.flatMap escapeChar ++ ascii '"' :: rest) := rfl
      rw [write_string, writeString_append]
      exact hread.trans (readString_written t rest)
  | null | bool b | number n | array items | object members =>
      exact absurd h (Option.some_ne_none s).symm

theorem faithful_any : Kind.any.Faithful := by
  intro v x depth rest hwell hint hdepth hrest h
  obtain rfl : v = x := Option.some.inj h
  exact readValue_written v depth rest hwell hint hdepth hrest

theorem faithful_present : Kind.present.Faithful := by
  intro v x depth rest hwell hint hdepth hrest h
  obtain rfl : some v = x := Option.some.inj h
  have hread := readValue_written v depth rest hwell hint hdepth hrest
  exact congrArg (Except.map fun (found : Json × Bytes) => (some found.1, found.2)) hread

theorem faithful_flag : Kind.flag.Faithful := by
  intro v b depth rest _ _ _ _ h
  cases v with
  | bool c =>
      obtain rfl : c = b := Option.some.inj h
      cases c with
      | true => exact congrArg (Except.map (true, ·)) (expect_append (utf8 "rue") rest)
      | false => exact congrArg (Except.map (false, ·)) (expect_append (utf8 "alse") rest)
  | null | string s | number n | array items | object members =>
      exact absurd h (Option.some_ne_none b).symm

/-- A kind that allows for nothing as well is as faithful as the kind that it is made of. -/
theorem faithful_optional {β : Type} (k : Kind β) (hk : k.Faithful) : k.optional.Faithful := by
  intro v x depth rest hwell hint hdepth hrest h
  by_cases hnull : v = null
  · rw [hnull] at h ⊢
    obtain rfl : none = x := Option.some.inj h
    exact congrArg (Except.map (none, ·)) (expect_append (utf8 "ull") rest)
  · -- The value is not `null`, so its text begins with something else.
    rcases write_eq_cons v hint with ⟨b, bs, hwrite, hblank, _⟩
    have hother : ¬ (b == ascii 'n') = true := fun hb => by
      rw [beq_iff_eq.mp hb] at hwrite
      exact hnull (eq_null_of_write v bs hwell hint hwrite)
    have hinner : (k.ofValue? v).map some = some x := by
      cases v with
      | null => exact absurd rfl hnull
      | bool b | string s | number n | array items | object members => exact h
    rcases Option.map_eq_some_iff.mp hinner with ⟨y, hy, rfl⟩
    have hread := hk v y depth rest hwell hint hdepth hrest hy
    rw [hwrite, List.cons_append] at hread ⊢
    change Kind.readOptional (k.ofText depth) (b :: (bs ++ rest)) = .ok (some y, rest)
    unfold Kind.readOptional
    simp only [skipBlanks_cons b _ hblank, if_neg hother, hread]
    rfl

/-! ## Members -/

variable {σ α : Type}

/-- A field reads from the text of a value what its kind takes from the value. -/
theorem ofText_of_faithful {β : Type} {name : String} {k : Kind β} {get : σ → Option β}
    {set : σ → β → σ} (hk : k.Faithful) (draft : σ) {v : Json} {x : β} {depth : Nat}
    (hv : v.Writable depth) (hx : k.ofValue? v = some x) (rest : Bytes) (hrest : EndsNumber rest) :
    (RecordField.of name k get set).ofText depth draft (v.write ++ rest)
      = .ok (set draft x, rest) := by
  rw [RecordField.of]
  simp only [hk v x depth rest hv.wellFormed hv.integral hv.nesting hrest hx]
  rfl

namespace Record

variable (r : Record σ α) (depth : Nat)

/-- Members fill a draft one after another. Each is a field that is not set, and is read from its
    text, in which so many brackets may be opened. -/
inductive Fills : σ → List (String × Json) → σ → Prop
  /-- There are none. -/
  | nil (draft : σ) : Fills draft [] draft
  /-- The first is read, and then the others. -/
  | cons {draft next final : σ} {key : String} {v : Json} {members : List (String × Json)}
      {f : RecordField σ} (hfield : r.field? key = some f) (hunset : f.isSet draft = false)
      (hread : ∀ rest, EndsNumber rest → f.ofText depth draft (v.write ++ rest) = .ok (next, rest))
      (hrest : Fills next members final) : Fills draft ((key, v) :: members) final

variable {r depth}

/-- A member is read into the draft. What stands behind it decides whether there are more. -/
theorem readMembers_member {draft next : σ} {key : String} {v : Json} {f : RecordField σ}
    (hfield : r.field? key = some f) (hunset : f.isSet draft = false) (fuel : Nat) (c : UInt8)
    (rest : Bytes) (hread : f.ofText depth draft (v.write ++ c :: rest) = .ok (next, c :: rest))
    (hblank : isBlank c = false) :
    r.readMembers depth (fuel + 1) draft (writeMember (key, v) ++ c :: rest)
      = if c == ascii '}' then .ok (next, rest)
        else if c == ascii ',' then r.readMembers depth fuel next rest
        else .error .malformed := by
  have hkey := readString_written key (ascii ':' :: (v.write ++ c :: rest))
  have hquote : skipBlanks (ascii '"' :: (key.toList.flatMap escapeChar
      ++ ascii '"' :: ascii ':' :: (v.write ++ c :: rest)))
      = ascii '"' :: (key.toList.flatMap escapeChar
        ++ ascii '"' :: ascii ':' :: (v.write ++ c :: rest)) := rfl
  have hcolon : readColon (ascii ':' :: (v.write ++ c :: rest)) = .ok (v.write ++ c :: rest) := rfl
  rw [writeMember, List.append_assoc, List.cons_append, writeString_append, readMembers, hquote]
  simp only [bne_self_eq_false, Bool.false_eq_true, if_false, hkey, hfield, hunset, hcolon, hread,
    skipBlanks_cons c rest hblank]

/-- Members that fill a draft are read from their text to that draft. -/
theorem readMembers_written (members : List (String × Json)) (m : String × Json) (draft final : σ)
    (fuel : Nat) (rest : Bytes) (h : r.Fills depth draft (m :: members) final)
    (hfuel : members.length < fuel) :
    r.readMembers depth fuel draft
        (writeMember m ++ (writeRestMembers members ++ ascii '}' :: rest)) = .ok (final, rest) := by
  induction members generalizing m draft fuel with
  | nil =>
      obtain ⟨fuel, rfl⟩ : ∃ n, fuel = n + 1 := ⟨fuel - 1, by omega⟩
      cases h with
      | cons hfield hunset hread hrest =>
          cases hrest with
          | nil =>
              have hmember := readMembers_member hfield hunset fuel (ascii '}') rest
                (hread _ (endsNumber_cons _ rest (Or.inr (Or.inr rfl)))) rfl
              exact hmember
  | cons w members ih =>
      obtain ⟨fuel, rfl⟩ : ∃ n, fuel = n + 1 := ⟨fuel - 1, by omega⟩
      rw [List.length_cons] at hfuel
      cases h with
      | cons hfield hunset hread hrest =>
          -- Behind the member stands a comma, and behind that the others.
          have hmember := readMembers_member hfield hunset fuel (ascii ',')
            (writeMember w ++ (writeRestMembers members ++ ascii '}' :: rest))
            (hread _ (endsNumber_cons _ _ (Or.inl rfl))) rfl
          have hsplit : writeRestMembers (w :: members)
              = ascii ',' :: (writeMember w ++ writeRestMembers members) := rfl
          rw [hsplit, List.cons_append, List.append_assoc]
          exact hmember.trans (ih w _ fuel hrest (by omega))

theorem length_le_length_writeRestMembers (members : List (String × Json)) :
    members.length ≤ (writeRestMembers members).length := by
  induction members with
  | nil => exact Nat.zero_le _
  | cons m members ih =>
      simp only [writeRestMembers, List.flatMap_cons, List.length_append, List.length_cons] at ih ⊢
      omega

theorem read_object (bs : Bytes) :
    r.read (depth + 1) (ascii '{' :: ascii '"' :: bs)
      = match r.readMembers depth (ascii '"' :: bs).length r.empty (ascii '"' :: bs) with
        | .error e => .error e
        | .ok (draft, rest) => conclude (r.finish? draft) rest :=
  rfl

/-- A record is read back from the text of the members that its draft was filled with. -/
theorem ofText_written (members : List (String × Json)) (m : String × Json) (final : σ) (record : α)
    (h : r.Fills 126 r.empty (m :: members) final) (hfinish : r.finish? final = some record) :
    r.ofText (object (m :: members)).write = .ok record := by
  have hlength := length_le_length_writeRestMembers members
  have hread := readMembers_written members m r.empty final
    (writeMember m ++ (writeRestMembers members ++ [ascii '}'])).length [] h (by
      simp only [List.length_append, List.length_cons]
      omega)
  rw [ofText, write_object, maxNesting]
  rw [writeMember, List.append_assoc, writeString_append] at hread ⊢
  rw [read_object, hread]
  dsimp only
  rw [hfinish]
  rfl

end Record

end Json

end Gateway
