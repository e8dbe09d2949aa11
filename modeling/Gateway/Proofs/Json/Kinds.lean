import Gateway.Proofs.Json.Layout

/-!
# Kinds That Are Read Alike

What a field may hold is read from text, and it is read from a value. Where the text stands for a
value, the two should come to the same, which is more than that neither contradicts the other: what
is taken from the value has to be read from the text as well, and what is not has to be refused
there. A kind of which this is true `Agrees` with itself.

A reader looks at the first octet and knows from it what it has got. So the value is looked at in
the same way, by the octet that it begins with: where that is not the one the kind asks for, the
text is refused, and the value is none that the kind holds.

## Main definitions

* `Kind.Agrees`: What is read from text is what is taken from the value that stands there.

## Theorems

* `agrees_text`, `agrees_flag`, `agrees_any`, `agrees_present`: Kinds that agree.
* `Kind.Agrees.optional`: Nothing or what a kind holds agrees if the kind does.
-/

namespace Gateway

theorem toOption_map {ε α β : Type} (f : α → β) (found : Except ε α) :
    (found.map f).toOption = found.toOption.map f := by
  cases found with
  | error e => rfl
  | ok a => rfl

namespace Json

namespace Kind

variable {β : Type}

/-- From the text of a value a kind reads what it takes from the value, and leaves what the value
    leaves. What it does not take it does not read. -/
def Agrees (k : Kind β) : Prop :=
  ∀ ⦃fuel depth : Nat⦄ ⦃bs rest : Bytes⦄ ⦃v : Json⦄, readValue fuel depth bs = .ok (v, rest) →
    (k.ofText depth bs).toOption = (k.ofValue? v).map (·, rest)

theorem agrees_text : text.Agrees := by
  intro fuel depth bs rest v hvalue
  rcases begins_of_readValue hvalue with ⟨b, inside, hblanks, hbegins⟩
  have htext : text.ofText depth bs
      = if b == ascii '"' then readString inside else .error (refusal (b :: inside)) := by
    change readText bs = _
    rw [readText, hblanks]
  rw [htext]
  by_cases hb : b = ascii '"'
  · subst hb
    rcases exists_fuel hblanks hvalue with ⟨n, hvalue⟩
    rw [readValue_string] at hvalue
    rw [if_pos (beq_self_eq_true _)]
    split at hvalue
    · cases hvalue
    · rename_i s next hread
      cases hvalue
      rw [hread]
      rfl
  · rw [if_neg (mt beq_iff_eq.mp hb)]
    cases v with
    | string s => exact absurd hbegins hb
    | null | bool _ | number _ | array _ | object _ => rfl

theorem agrees_flag : flag.Agrees := by
  intro fuel depth bs rest v hvalue
  rcases begins_of_readValue hvalue with ⟨b, inside, hblanks, hbegins⟩
  have htext : flag.ofText depth bs
      = if b == ascii 't' then (expect (utf8 "rue") inside).map (true, ·)
        else if b == ascii 'f' then (expect (utf8 "alse") inside).map (false, ·)
        else .error (refusal (b :: inside)) := by
    change readFlag bs = _
    rw [readFlag, hblanks]
  rw [htext]
  rcases exists_fuel hblanks hvalue with ⟨n, hfront⟩
  by_cases hyes : b = ascii 't'
  · subst hyes
    replace hfront : (expect (utf8 "rue") inside).map (Json.bool true, ·) = .ok (v, rest) := hfront
    rcases exists_of_map_eq_ok hfront with ⟨next, hword, hfound⟩
    cases hfound
    rw [if_pos (beq_self_eq_true _), hword]
    rfl
  by_cases hno : b = ascii 'f'
  · subst hno
    replace hfront : (expect (utf8 "alse") inside).map (Json.bool false, ·) = .ok (v, rest) :=
      hfront
    rcases exists_of_map_eq_ok hfront with ⟨next, hword, hfound⟩
    cases hfound
    rw [if_neg (mt beq_iff_eq.mp hyes), if_pos (beq_self_eq_true _), hword]
    rfl
  · rw [if_neg (mt beq_iff_eq.mp hyes), if_neg (mt beq_iff_eq.mp hno)]
    cases v with
    | bool c =>
        cases c with
        | true => exact absurd hbegins hyes
        | false => exact absurd hbegins hno
    | null | number _ | string _ | array _ | object _ => rfl

/-- A value is read again with the fuel that its own octets are worth, and that is enough. -/
theorem agrees_any : any.Agrees := by
  intro fuel depth bs rest v hvalue
  have htext : any.ofText depth bs = readValue (fuelFor bs) depth bs := rfl
  rw [htext, readValue_fuelFor hvalue]
  rfl

theorem agrees_present : present.Agrees := by
  intro fuel depth bs rest v hvalue
  have htext : present.ofText depth bs
      = (readValue (fuelFor bs) depth bs).map fun found => (some found.1, found.2) := rfl
  rw [htext, readValue_fuelFor hvalue]
  rfl

theorem Agrees.optional {k : Kind β} (hk : k.Agrees) : k.optional.Agrees := by
  intro fuel depth bs rest v hvalue
  rcases begins_of_readValue hvalue with ⟨b, inside, hblanks, hbegins⟩
  have htext : k.optional.ofText depth bs
      = if b == ascii 'n' then (expect (utf8 "ull") inside).map (none, ·)
        else (k.ofText depth (b :: inside)).map fun found => (some found.1, found.2) := by
    change readOptional (k.ofText depth) bs = _
    rw [readOptional, hblanks]
  rw [htext]
  by_cases hb : b = ascii 'n'
  · subst hb
    rcases exists_fuel hblanks hvalue with ⟨n, hfront⟩
    replace hfront : (expect (utf8 "ull") inside).map (Json.null, ·) = .ok (v, rest) := hfront
    rcases exists_of_map_eq_ok hfront with ⟨next, hword, hfound⟩
    cases hfound
    rw [if_pos (beq_self_eq_true _), hword]
    rfl
  · have hvalue? : k.optional.ofValue? v = (k.ofValue? v).map some := by
      cases v with
      | null => exact absurd hbegins hb
      | bool _ | number _ | string _ | array _ | object _ => rfl
    have hagrees := hk ((readValue_skipBlanks fuel depth bs).trans hvalue)
    rw [hblanks] at hagrees
    rw [if_neg (mt beq_iff_eq.mp hb), toOption_map, hagrees, hvalue?, Option.map_map,
      Option.map_map]
    rfl

end Kind

end Json

end Gateway
