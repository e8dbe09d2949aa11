import Gateway.Json.Choice
import Gateway.Proofs.Json.Passing

/-!
# Kinds at the Pace of Values

The same octets may be read as a value, and as what a field may hold. The two readers look at
different octets first and refuse different things, but where neither refuses they come to the same
place, and so they can be compared again behind it. A kind that does this is `Paced`; one that reads
what it takes from the value besides is `Traced`. For a list or a key it is enough to be paced, as
nothing is said of what is in them.

A value is taken apart by what it begins with. Blanks before it make no difference, so each kind is
held against the value from the first octet that is none (`exists_fuel`).

## Main definitions

* `Kind.Paced`: A kind leaves what a value leaves.
* `Kind.Traced`: A kind reads what it takes from the value.

## Theorems

* `readValue_brace`: What an object is read from.
* `Kind.traced_text`, `Kind.traced_word`, `Kind.traced_choice`: Kinds that are traced.
* `Kind.paced_texts`, `Kind.Paced.optional`: Kinds that are paced.
-/

namespace Gateway

namespace Json

/-! ## Members -/

theorem KeyAt.unique {bs after after' : Bytes} {key key' : String} (h : KeyAt bs key after)
    (h' : KeyAt bs key' after') : key = key' ∧ after = after' := by
  rcases h with ⟨inside, colon, hquote, hkey, hcolon⟩
  rcases h' with ⟨inside', colon', hquote', hkey', hcolon'⟩
  obtain rfl : inside = inside' := (List.cons.inj (hquote.symm.trans hquote')).2
  obtain ⟨rfl, rfl⟩ := Prod.mk.inj (Except.ok.inj (hkey.symm.trans hkey'))
  exact ⟨rfl, Except.ok.inj (hcolon.symm.trans hcolon')⟩

/-- Behind a brace there is another one, or there are members. -/
theorem readValue_brace {fuel depth : Nat} {inside rest : Bytes} {v : Json}
    (h : readValue (fuel + 1) depth (ascii '{' :: inside) = .ok (v, rest)) :
    ∃ d c more, depth = d + 1 ∧ skipBlanks inside = c :: more
      ∧ (c = ascii '}' ∧ v = object [] ∧ rest = more
        ∨ c ≠ ascii '}' ∧ readMembers fuel d [] inside = .ok (v, rest)) := by
  have hvalue := valueAt_of_readValue h
  have hfront : skipBlanks (ascii '{' :: inside) = ascii '{' :: inside := rfl
  rw [hfront] at hvalue
  generalize hb : ascii '{' = b at hvalue
  cases hvalue with
  | null _ | yes _ | no _ | string _ | noItems _ | items _ _ _ => exact absurd hb (by decide)
  | number hstarts _ => exact absurd (hb ▸ hstarts) (by decide)
  | noMembers hclose => exact ⟨_, _, rest, rfl, hclose, Or.inl ⟨rfl, rfl, rfl⟩⟩
  | members hfront hc hread => exact ⟨_, _, _, rfl, hfront, Or.inr ⟨hc, hread⟩⟩

/-! ## Kinds -/

theorem readValue_skipBlanks (fuel depth : Nat) (bs : Bytes) :
    readValue fuel depth (skipBlanks bs) = readValue fuel depth bs := by
  cases fuel with
  | zero => rfl
  | succ fuel => rw [readValue, readValue, skipBlanks_skipBlanks]

/-- A value that is read is read from behind the blanks, and there was some fuel. -/
theorem exists_fuel {fuel depth : Nat} {bs front : Bytes} {found : Json × Bytes}
    (hblanks : skipBlanks bs = front) (h : readValue fuel depth bs = .ok found) :
    ∃ n, readValue (n + 1) depth front = .ok found := by
  cases fuel with
  | zero => cases h
  | succ n => exact ⟨n, hblanks ▸ (readValue_skipBlanks (n + 1) depth bs).trans h⟩

namespace Kind

variable {β : Type}

/-- A kind leaves the octets that a value leaves which is read from the same ones. -/
def Paced (k : Kind β) : Prop :=
  ∀ ⦃fuel depth : Nat⦄ ⦃bs left rest : Bytes⦄ ⦃x : β⦄ ⦃v : Json⦄,
    k.ofText depth bs = .ok (x, left) → readValue fuel depth bs = .ok (v, rest) → left = rest

/-- A kind leaves the octets that a value leaves which is read from the same ones, and reads what it
    takes from that value. -/
def Traced (k : Kind β) : Prop :=
  ∀ ⦃fuel depth : Nat⦄ ⦃bs left rest : Bytes⦄ ⦃x : β⦄ ⦃v : Json⦄,
    k.ofText depth bs = .ok (x, left) → readValue fuel depth bs = .ok (v, rest) →
      left = rest ∧ k.ofValue? v = some x

theorem Traced.paced {k : Kind β} (h : k.Traced) : k.Paced :=
  fun _ _ _ _ _ _ _ hread hvalue => (h hread hvalue).1

theorem traced_text : text.Traced := by
  intro fuel depth bs left rest s v hread hvalue
  replace hread : readText bs = .ok (s, left) := hread
  rw [readText] at hread
  split at hread
  · cases hread
  rename_i b inside hblanks
  split at hread
  · rename_i hquote
    obtain rfl := eq_of_beq hquote
    rcases exists_fuel hblanks hvalue with ⟨n, hvalue⟩
    rw [readValue_string, hread] at hvalue
    cases hvalue
    exact ⟨rfl, rfl⟩
  · cases hread

theorem text?_eq_some {v : Json} {s : String} (h : text? v = some s) : v = string s := by
  cases v with
  | string t => exact congrArg string (Option.some.inj h)
  | null | bool b | number n | array items | object members => cases h

theorem traced_textOrEmpty : textOrEmpty.Traced :=
  traced_text

theorem traced_word : word.Traced := by
  intro fuel depth bs left rest x v hread hvalue
  replace hread : readWord bs = .ok (x, left) := hread
  rw [readWord] at hread
  split at hread
  · cases hread
  rename_i b digits hblanks
  split at hread
  · rename_i hstarts
    rcases exists_fuel hblanks hvalue with ⟨n, hvalue⟩
    split at hread
    · cases hread
    · rename_i m fits left' hnumber
      rw [readValue_number n depth b digits left' _ hstarts hnumber] at hvalue
      cases hvalue
      split at hread
      · rename_i hpositive
        cases hread
        exact ⟨rfl, if_pos hpositive⟩
      · cases hread
    · cases hread
  · cases hread

theorem word?_eq_some {v : Json} {n : Nat} (h : word? v = some n) :
    ∃ fits, v = number (.integer n fits) := by
  rw [word?.eq_def] at h
  split at h
  · rename_i m fits
    split at h
    · rename_i hpositive
      have hm : (n : Int) = m := Option.some.inj h ▸ Int.toNat_of_nonneg hpositive
      subst hm
      exact ⟨fits, rfl⟩
    · cases h
  · cases h

theorem paced_texts : texts.Paced := by
  intro fuel depth bs left rest ss v hread hvalue
  rw [texts] at hread
  dsimp only at hread
  split at hread
  · cases hread
  · rename_i hfirst
    split at hread
    · cases hread
      exact eq_of_readValue hfirst hvalue
    · cases hread

/-- Either the word `null` stands there, or what the inner kind reads. -/
theorem readOptional_ok {inner : Bytes → Reading β} {bs left : Bytes} {x : Option β}
    (h : readOptional inner bs = .ok (x, left)) :
    (∃ after, skipBlanks bs = ascii 'n' :: after ∧ expect (utf8 "ull") after = .ok left ∧ x = none)
      ∨ ∃ y, inner (skipBlanks bs) = .ok (y, left) ∧ x = some y := by
  rw [readOptional] at h
  split at h
  · cases h
  rename_i b after hblanks
  split at h
  · rename_i hn
    obtain rfl := eq_of_beq hn
    rcases exists_of_map_eq_ok h with ⟨more, hword, hfound⟩
    cases hfound
    exact Or.inl ⟨after, hblanks, hword, rfl⟩
  · rcases exists_of_map_eq_ok h with ⟨found, hinner, hfound⟩
    cases hfound
    exact Or.inr ⟨found.1, hblanks ▸ hinner, rfl⟩

theorem readValue_null {fuel depth : Nat} {bs after left rest : Bytes} {v : Json}
    (hblanks : skipBlanks bs = ascii 'n' :: after) (hword : expect (utf8 "ull") after = .ok left)
    (hvalue : readValue fuel depth bs = .ok (v, rest)) : left = rest ∧ v = null := by
  rcases exists_fuel hblanks hvalue with ⟨n, hvalue⟩
  have hnull : readValue (n + 1) depth (ascii 'n' :: after)
      = (expect (utf8 "ull") after).map (null, ·) := rfl
  rw [hnull, hword] at hvalue
  cases hvalue
  exact ⟨rfl, rfl⟩

theorem Paced.optional {k : Kind β} (hk : k.Paced) : k.optional.Paced := by
  intro fuel depth bs left rest x v hread hvalue
  rcases readOptional_ok hread with ⟨after, hblanks, hword, rfl⟩ | ⟨y, hinner, rfl⟩
  · exact (readValue_null hblanks hword hvalue).1
  · exact hk hinner ((readValue_skipBlanks fuel depth bs).trans hvalue)

theorem Paced.placed {k : Kind β} (hk : k.Paced) : k.placed.Paced :=
  hk

/-! ## Choices -/

theorem readName_ok {α : Type} {ofName? : String → Option α} {bs left : Bytes} {x : α}
    (h : readName ofName? bs = .ok (x, left)) :
    ∃ s, readString bs = .ok (s, left) ∧ ofName? s = some x := by
  rw [readName] at h
  split at h
  · cases h
  rename_i s left' hstring
  split at h
  · rename_i hname
    cases h
    exact ⟨s, hstring, hname⟩
  · cases h

/-- What follows the name in an object is read as a member whose value is `null`. -/
theorem closeChoice_ok {bs left : Bytes} (h : closeChoice false bs = .ok left) :
    ∃ after word next, readColon bs = .ok after ∧ skipBlanks after = ascii 'n' :: word
      ∧ expect (utf8 "ull") word = .ok next ∧ skipBlanks next = ascii '}' :: left := by
  rw [closeChoice] at h
  split at h
  · cases h
  rename_i after hcolon
  split at h
  · cases h
  rename_i rest hunit
  rw [readUnit] at hunit
  split at hunit
  · cases hunit
  rename_i b word hblanks
  split at hunit
  · rename_i hn
    obtain rfl := eq_of_beq hn
    split at h
    · cases h
    rename_i c more hend
    split at h
    · rename_i hbrace
      obtain rfl := eq_of_beq hbrace
      cases h
      exact ⟨after, word, rest, hcolon, hblanks, hunit, hend⟩
    · cases h
  · rw [Bool.false_and, if_neg Bool.false_ne_true] at hunit
    cases hunit

/-- A choice is a name in quotes, or in braces with something behind it. -/
theorem readChoice_ok {α : Type} {ofName? : String → Option α} {orEmpty : Bool} {bs left : Bytes}
    {x : α} (h : readChoice ofName? orEmpty bs = .ok (x, left)) :
    (∃ inside, skipBlanks bs = ascii '"' :: inside ∧ readName ofName? inside = .ok (x, left))
      ∨ ∃ after inside colon, skipBlanks bs = ascii '{' :: after
        ∧ skipBlanks after = ascii '"' :: inside ∧ readName ofName? inside = .ok (x, colon)
        ∧ closeChoice orEmpty colon = .ok left := by
  rw [readChoice] at h
  split at h
  · cases h
  rename_i b after hblanks
  split at h
  · rename_i hquote
    obtain rfl := eq_of_beq hquote
    exact Or.inl ⟨after, hblanks, h⟩
  split at h
  · rename_i hbrace
    obtain rfl := eq_of_beq hbrace
    split at h
    · cases h
    rename_i q inside hinside
    split at h
    · cases h
    rename_i hq
    obtain rfl := eq_of_not_bne hq
    split at h
    · cases h
    rename_i y colon hname
    rcases exists_of_map_eq_ok h with ⟨left', hclose, hfound⟩
    cases hfound
    exact Or.inr ⟨after, inside, colon, hblanks, hinside, hname, hclose⟩
  · cases h

/-- A name as the only key of an object, with `null`. -/
theorem readMembers_choice {fuel depth : Nat} {bs inside colon left rest : Bytes} {s : String}
    {v : Json} (hquote : skipBlanks bs = ascii '"' :: inside)
    (hname : readString inside = .ok (s, colon)) (hclose : closeChoice false colon = .ok left)
    (hvalue : readMembers fuel depth [] bs = .ok (v, rest)) :
    left = rest ∧ v = object [(s, null)] := by
  rcases closeChoice_ok hclose with ⟨after, word, next, hcolon, hnull, hword, hend⟩
  cases fuel with
  | zero => cases hvalue
  | succ fuel =>
      rcases readMembers_first hvalue with ⟨key, after', w, next', c, more, hkey, hw, hend', hlast⟩
      obtain ⟨rfl, rfl⟩ := hkey.unique ⟨inside, colon, hquote, hname, hcolon⟩
      obtain ⟨rfl, rfl⟩ := readValue_null hnull hword hw
      obtain ⟨rfl, rfl⟩ := List.cons.inj (hend'.symm.trans hend)
      rcases hlast with ⟨-, rfl, rfl⟩ | ⟨hcomma, -⟩
      · exact ⟨rfl, rfl⟩
      · exact absurd hcomma (by decide)

theorem traced_choice {α : Type} (ofName? : String → Option α) :
    (choice ofName? false).Traced := by
  intro fuel depth bs left rest x v hread hvalue
  rcases readChoice_ok hread with ⟨inside, hquote, hname⟩
    | ⟨after, inside, colon, hbrace, hquote, hname, hclose⟩
  · rcases readName_ok hname with ⟨s, hstring, hs⟩
    rcases exists_fuel hquote hvalue with ⟨n, hvalue⟩
    rw [readValue_string, hstring] at hvalue
    cases hvalue
    exact ⟨rfl, hs⟩
  · rcases readName_ok hname with ⟨s, hstring, hs⟩
    rcases exists_fuel hbrace hvalue with ⟨n, hvalue⟩
    rcases readValue_brace hvalue with ⟨d, c, more, rfl, hc, ⟨rfl, -, -⟩ | ⟨-, hmembers⟩⟩
    · exact absurd (List.cons.inj (hquote.symm.trans hc)).1 (by decide)
    · obtain ⟨rfl, rfl⟩ := readMembers_choice hquote hstring hclose hmembers
      exact ⟨rfl, hs⟩

/-- A choice is made by a name, or by an object with nothing but the name. -/
theorem choice?_eq_some {α : Type} {ofName? : String → Option α} {v : Json} {x : α}
    (h : choice? ofName? false v = some x) :
    ∃ s, ofName? s = some x ∧ (v = string s ∨ v = object [(s, null)]) := by
  rw [choice?.eq_def] at h
  split at h
  · exact ⟨_, h, Or.inl rfl⟩
  · exact ⟨_, h, Or.inr rfl⟩
  · cases h
  · cases h

end Kind

end Json

end Gateway
