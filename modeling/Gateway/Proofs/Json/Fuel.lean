import Gateway.Proofs.Json.Pacing

/-!
# Enough Fuel

Readers are given fuel, and one that runs out of it refuses what it would have read. A value inside
a text is read twice with different fuel: with what is left behind the brackets around it, and with
`fuelFor` its own octets where a record reads it. For the two to come to the same, the second has to
be enough. It is, because every unit of fuel is paid for by an octet. Whatever is read takes the
octets it is read from off the front, so less is left (`length_of_readValue`); a bracket takes two
units and one octet, and each item or member one unit and an octet behind it. What was read with
any fuel at all is therefore read with twice as much as there are octets (`ample`).

The lengths are those of what is left when a value is passed over, where there are fewer cases.

## Main definitions

* `Shrinks`: What is passed over with so much fuel leaves no more than there was.
* `Ample`: What is read with so much fuel is read with twice as much as there are octets.

## Theorems

* `length_of_skipText`, `length_of_skipNumber`: Strings and numbers leave less.
* `length_of_readValue`: So does a value.
* `readValue_of_valueAt`: What stands there is read.
* `ample`, `readValue_fuelFor`: There is enough fuel for any value.
-/

namespace Gateway

namespace Json

/-! ## What Is Left -/

theorem length_skipBlanks (bs : Bytes) : (skipBlanks bs).length ≤ bs.length :=
  List.length_dropWhile_le isBlank bs

theorem length_of_skipBlanks {bs more : Bytes} {c : UInt8} (h : skipBlanks bs = c :: more) :
    more.length < bs.length := by
  have hle := length_skipBlanks bs
  rw [h, List.length_cons] at hle
  exact hle

theorem length_of_expect {word bs rest : Bytes} (h : expect word bs = .ok rest) :
    rest.length ≤ bs.length := by
  induction word generalizing bs with
  | nil =>
      cases h
      exact Nat.le_refl _
  | cons w word ih =>
      cases bs with
      | nil => cases h
      | cons b bs =>
          rw [expect] at h
          split at h
          · exact Nat.le_succ_of_le (ih h)
          · cases h

theorem length_of_skipText {bs rest : Bytes} (h : skipText bs = .ok rest) :
    rest.length ≤ bs.length := by
  fun_induction skipText bs with
  | case1 | case3 | case5 | case6 | case8 | case9 => cases h
  | case2 b bs _ =>
      cases h
      exact Nat.le_succ _
  | case4 | case7 | case10 =>
      rename_i ih
      have hle := ih h
      simp only [List.length_cons]
      omega

theorem length_of_skipDigits {bs rest : Bytes} (h : skipDigits bs = .ok rest) :
    rest.length ≤ bs.length := by
  rw [skipDigits, Decimal.spanDigits, List.span_eq_takeWhile_dropWhile] at h
  split at h
  · cases h
  · rename_i hspan
    cases h
    rw [← (Prod.mk.inj hspan).2]
    exact List.length_dropWhile_le _ bs

theorem length_of_skipExponent {bs rest : Bytes} (h : skipExponent bs = .ok rest) :
    rest.length ≤ bs.length := by
  cases bs with
  | nil =>
      cases h
      exact Nat.le_refl _
  | cons b bs =>
      rw [skipExponent.eq_def] at h
      dsimp only at h
      split at h
      · split at h
        · cases h
        · split at h
          all_goals
            have hle := length_of_skipDigits h
            simp only [List.length_cons] at hle ⊢
            omega
      · cases h
        exact Nat.le_refl _

theorem length_of_skipPlaces {bs rest : Bytes} (h : skipPlaces bs = .ok rest) :
    rest.length ≤ bs.length := by
  cases bs with
  | nil =>
      cases h
      exact Nat.le_refl _
  | cons b bs =>
      rw [skipPlaces] at h
      split at h
      · rcases exists_of_bind_eq_ok h with ⟨exponent, hfraction, hexponent⟩
        have hfirst := length_of_skipDigits hfraction
        have hsecond := length_of_skipExponent hexponent
        rw [List.length_cons]
        omega
      · exact length_of_skipExponent h

theorem length_of_skipUnsigned {bs rest : Bytes} (h : skipUnsigned bs = .ok rest) :
    rest.length ≤ bs.length := by
  cases bs with
  | nil => cases h
  | cons b bs =>
      rw [skipUnsigned.eq_def] at h
      dsimp only at h
      split at h
      · split at h
        · split at h
          · cases h
          · rename_i c places _
            replace h : skipPlaces (c :: places) = .ok rest := h
            exact Nat.le_succ_of_le (length_of_skipPlaces h)
        · replace h : skipPlaces [] = .ok rest := h
          exact Nat.le_succ_of_le (length_of_skipPlaces h)
      · rcases exists_of_bind_eq_ok h with ⟨places, hwhole, h⟩
        replace h : skipPlaces places = .ok rest := by
          cases places with
          | nil => exact h
          | cons c places => exact h
        exact Nat.le_trans (length_of_skipPlaces h) (length_of_skipDigits hwhole)

theorem length_of_skipNumber {bs rest : Bytes} (h : skipNumber bs = .ok rest) :
    rest.length ≤ bs.length := by
  cases bs with
  | nil => cases h
  | cons b bs =>
      rw [skipNumber] at h
      split at h
      · exact Nat.le_succ_of_le (length_of_skipUnsigned h)
      · exact length_of_skipUnsigned h

theorem length_of_readColon {bs rest : Bytes} (h : readColon bs = .ok rest) :
    rest.length < bs.length := by
  rw [readColon] at h
  split at h
  · cases h
  rename_i hblanks
  split at h
  · cases h
    exact length_of_skipBlanks hblanks
  · cases h

/-- What is passed over with so much fuel leaves no more than there was. -/
structure Shrinks (fuel : Nat) : Prop where
  value {bs rest : Bytes} (h : skipValue fuel bs = .ok rest) : rest.length ≤ bs.length
  items {bs rest : Bytes} (h : skipItems fuel bs = .ok rest) : rest.length ≤ bs.length
  members {bs rest : Bytes} (h : skipMembers fuel bs = .ok rest) : rest.length ≤ bs.length

section Shrinks

variable {fuel : Nat} {bs rest : Bytes} (shrinks : Shrinks fuel)
include shrinks

theorem length_of_skipValue_succ (h : skipValue (fuel + 1) bs = .ok rest) :
    rest.length ≤ bs.length := by
  rw [skipValue] at h
  split at h
  · cases h
  rename_i b inside hblanks
  have hinside := length_of_skipBlanks hblanks
  split at h
  · exact Nat.le_of_lt (Nat.lt_of_le_of_lt (length_of_expect h) hinside)
  split at h
  · exact Nat.le_of_lt (Nat.lt_of_le_of_lt (length_of_expect h) hinside)
  split at h
  · exact Nat.le_of_lt (Nat.lt_of_le_of_lt (length_of_expect h) hinside)
  split at h
  · exact Nat.le_of_lt (Nat.lt_of_le_of_lt (length_of_skipText h) hinside)
  split at h
  · exact Nat.le_trans (length_of_skipNumber h) hinside
  split at h
  · split at h
    · cases h
    rename_i hfront
    split at h
    · cases h
      have hclose := length_of_skipBlanks hfront
      omega
    · exact Nat.le_of_lt (Nat.lt_of_le_of_lt (shrinks.items h) hinside)
  split at h
  · split at h
    · cases h
    rename_i hfront
    split at h
    · cases h
      have hclose := length_of_skipBlanks hfront
      omega
    · exact Nat.le_of_lt (Nat.lt_of_le_of_lt (shrinks.members h) hinside)
  · cases h

theorem length_of_skipItems_succ (h : skipItems (fuel + 1) bs = .ok rest) :
    rest.length ≤ bs.length := by
  rw [skipItems] at h
  split at h
  · cases h
  rename_i hvalue
  have hnext := shrinks.value hvalue
  split at h
  · cases h
  rename_i hend
  have hmore := length_of_skipBlanks hend
  split at h
  · cases h
    omega
  split at h
  · have hrest := shrinks.items h
    omega
  · cases h

theorem length_of_skipMembers_succ (h : skipMembers (fuel + 1) bs = .ok rest) :
    rest.length ≤ bs.length := by
  rw [skipMembers] at h
  split at h
  · cases h
  rename_i hquote
  split at h
  · cases h
  split at h
  · cases h
  rename_i hkey
  split at h
  · cases h
  rename_i hcolon
  split at h
  · cases h
  rename_i hvalue
  have hinside := length_of_skipBlanks hquote
  have hcolons := length_of_skipText hkey
  have hafter := length_of_readColon hcolon
  have hnext := shrinks.value hvalue
  split at h
  · cases h
  rename_i hend
  have hmore := length_of_skipBlanks hend
  split at h
  · cases h
    omega
  split at h
  · have hrest := shrinks.members h
    omega
  · cases h

end Shrinks

theorem shrinks_of_fuel (fuel : Nat) : Shrinks fuel := by
  induction fuel with
  | zero =>
      refine ⟨fun h => ?_, fun h => ?_, fun h => ?_⟩
      · cases h
      · cases h
      · cases h
  | succ fuel ih =>
      exact ⟨length_of_skipValue_succ ih, length_of_skipItems_succ ih,
        length_of_skipMembers_succ ih⟩

theorem length_of_readValue {fuel depth : Nat} {bs rest : Bytes} {v : Json}
    (h : readValue fuel depth bs = .ok (v, rest)) : rest.length ≤ bs.length :=
  (shrinks_of_fuel fuel).value ((passedOver fuel).value h)

theorem KeyAt.length {bs after : Bytes} {key : String} (h : KeyAt bs key after) :
    after.length + 2 ≤ bs.length := by
  rcases h with ⟨inside, colon, hquote, hkey, hcolon⟩
  have hinside := length_of_skipBlanks hquote
  have hcolons := length_of_skipText (skipText_of_readString hkey)
  have hafter := length_of_readColon hcolon
  omega

/-! ## Reading Again -/

theorem readValue_bracket_eq {fuel depth : Nat} {c : UInt8} {inside more : Bytes}
    (h : skipBlanks inside = c :: more) :
    readValue (fuel + 1) (depth + 1) (ascii '[' :: inside)
      = if c == ascii ']' then .ok (array [], more) else readItems fuel depth [] inside := by
  have hfront : skipBlanks (ascii '[' :: inside) = ascii '[' :: inside := rfl
  rw [readValue, hfront]
  simp only [h]
  rfl

theorem readValue_brace_eq {fuel depth : Nat} {c : UInt8} {inside more : Bytes}
    (h : skipBlanks inside = c :: more) :
    readValue (fuel + 1) (depth + 1) (ascii '{' :: inside)
      = if c == ascii '}' then .ok (object [], more) else readMembers fuel depth [] inside := by
  have hfront : skipBlanks (ascii '{' :: inside) = ascii '{' :: inside := rfl
  rw [readValue, hfront]
  simp only [h]
  rfl

/-- What stands behind the blanks is read, in the way in which it stands there. -/
theorem readValue_of_valueAt {fuel depth : Nat} {bs rest : Bytes} {v : Json}
    (h : ValueAt fuel depth (skipBlanks bs) v rest) :
    readValue (fuel + 1) depth bs = .ok (v, rest) := by
  rw [← readValue_skipBlanks]
  generalize skipBlanks bs = front at h ⊢
  cases h with
  | null hword => exact congrArg (Except.map (Json.null, ·)) hword
  | yes hword => exact congrArg (Except.map (Json.bool true, ·)) hword
  | no hword => exact congrArg (Except.map (Json.bool false, ·)) hword
  | string hread => rw [readValue_string, hread]
  | number hstarts hread => exact readValue_number fuel depth _ _ rest _ hstarts hread
  | noItems hclose => exact readValue_bracket_eq hclose
  | items hfront hc hread =>
      exact (readValue_bracket_eq hfront).trans ((if_neg (mt beq_iff_eq.mp hc)).trans hread)
  | noMembers hclose => exact readValue_brace_eq hclose
  | members hfront hc hread =>
      exact (readValue_brace_eq hfront).trans ((if_neg (mt beq_iff_eq.mp hc)).trans hread)

/-- Where items are read, the first is a value, and behind it stands a bracket or a comma. -/
theorem readItems_first {fuel depth : Nat} {acc : List Json} {bs rest : Bytes} {v : Json}
    (h : readItems (fuel + 1) depth acc bs = .ok (v, rest)) :
    ∃ w next c more, readValue fuel depth bs = .ok (w, next) ∧ skipBlanks next = c :: more
      ∧ (c = ascii ']' ∧ v = array (w :: acc).reverse ∧ rest = more
        ∨ c = ascii ',' ∧ readItems fuel depth (w :: acc) more = .ok (v, rest)) := by
  rw [readItems] at h
  split at h
  · cases h
  rename_i w next hvalue
  split at h
  · cases h
  rename_i c more hend
  refine ⟨w, next, c, more, hvalue, hend, ?_⟩
  split at h
  · rename_i hbracket
    cases h
    exact Or.inl ⟨eq_of_beq hbracket, rfl, rfl⟩
  split at h
  · rename_i hcomma
    exact Or.inr ⟨eq_of_beq hcomma, h⟩
  · cases h

theorem readItems_of_first {fuel depth : Nat} {acc : List Json} {bs next more : Bytes} {w : Json}
    {c : UInt8} (hvalue : readValue fuel depth bs = .ok (w, next))
    (hend : skipBlanks next = c :: more) :
    readItems (fuel + 1) depth acc bs
      = if c == ascii ']' then .ok (array (w :: acc).reverse, more)
        else if c == ascii ',' then readItems fuel depth (w :: acc) more
        else .error .malformed := by
  rw [readItems]
  simp only [hvalue, hend]

theorem readMembers_of_first {fuel depth : Nat} {acc : List (String × Json)}
    {bs after next more : Bytes} {key : String} {w : Json} {c : UInt8} (hkey : KeyAt bs key after)
    (hvalue : readValue fuel depth after = .ok (w, next)) (hend : skipBlanks next = c :: more) :
    readMembers (fuel + 1) depth acc bs
      = if c == ascii '}' then .ok (object (insert key w acc), more)
        else if c == ascii ',' then readMembers fuel depth (insert key w acc) more
        else .error .malformed := by
  rcases hkey with ⟨inside, colon, hquote, hread, hcolon⟩
  have hq : ¬ (ascii '"' != ascii '"') = true := by decide
  rw [readMembers, hquote]
  simp only [if_neg hq, hread, hcolon, hvalue, hend]

/-! ## Fuel -/

/-- What is read with so much fuel is read with twice as much as there are octets; behind a bracket
    it takes one unit more. -/
structure Ample (fuel : Nat) : Prop where
  value {more depth : Nat} {bs rest : Bytes} {v : Json} (hmore : 2 * bs.length ≤ more)
    (h : readValue fuel depth bs = .ok (v, rest)) : readValue more depth bs = .ok (v, rest)
  items {more depth : Nat} {acc : List Json} {bs rest : Bytes} {v : Json}
    (hmore : 2 * bs.length < more) (h : readItems fuel depth acc bs = .ok (v, rest)) :
    readItems more depth acc bs = .ok (v, rest)
  members {more depth : Nat} {acc : List (String × Json)} {bs rest : Bytes} {v : Json}
    (hmore : 2 * bs.length < more) (h : readMembers fuel depth acc bs = .ok (v, rest)) :
    readMembers more depth acc bs = .ok (v, rest)

section Ample

variable {fuel more depth : Nat} {bs rest : Bytes} {v : Json} (ample : Ample fuel)
include ample

/-- Only behind a bracket does the fuel matter, and the bracket was an octet. -/
theorem readValue_of_ample (hmore : 2 * bs.length ≤ more + 1)
    (h : readValue (fuel + 1) depth bs = .ok (v, rest)) :
    readValue (more + 1) depth bs = .ok (v, rest) := by
  have hvalue := valueAt_of_readValue h
  have hlength := length_skipBlanks bs
  refine readValue_of_valueAt ?_
  generalize skipBlanks bs = front at hvalue hlength ⊢
  cases hvalue with
  | null hword => exact .null hword
  | yes hword => exact .yes hword
  | no hword => exact .no hword
  | string hread => exact .string hread
  | number hstarts hread => exact .number hstarts hread
  | noItems hclose => exact .noItems hclose
  | items hfront hc hread =>
      rw [List.length_cons] at hlength
      exact .items hfront hc (ample.items (by omega) hread)
  | noMembers hclose => exact .noMembers hclose
  | members hfront hc hread =>
      rw [List.length_cons] at hlength
      exact .members hfront hc (ample.members (by omega) hread)

theorem readItems_of_ample {acc : List Json} (hmore : 2 * bs.length ≤ more)
    (h : readItems (fuel + 1) depth acc bs = .ok (v, rest)) :
    readItems (more + 1) depth acc bs = .ok (v, rest) := by
  rcases readItems_first h with ⟨w, next, c, behind, hvalue, hend, hlast⟩
  rw [readItems_of_first (ample.value hmore hvalue) hend]
  rcases hlast with ⟨rfl, rfl, rfl⟩ | ⟨rfl, hitems⟩
  · rfl
  · have hnext := length_of_readValue hvalue
    have hbehind := length_of_skipBlanks hend
    exact ample.items (by omega) hitems

theorem readMembers_of_ample {acc : List (String × Json)} (hmore : 2 * bs.length ≤ more)
    (h : readMembers (fuel + 1) depth acc bs = .ok (v, rest)) :
    readMembers (more + 1) depth acc bs = .ok (v, rest) := by
  rcases readMembers_first h with ⟨key, after, w, next, c, behind, hkey, hvalue, hend, hlast⟩
  have hafter := hkey.length
  rw [readMembers_of_first hkey (ample.value (by omega) hvalue) hend]
  rcases hlast with ⟨rfl, rfl, rfl⟩ | ⟨rfl, hmembers⟩
  · rfl
  · have hnext := length_of_readValue hvalue
    have hbehind := length_of_skipBlanks hend
    exact ample.members (by omega) hmembers

end Ample

/-- A value takes at least one octet. -/
theorem length_pos_of_readValue {fuel depth : Nat} {bs rest : Bytes} {v : Json}
    (h : readValue fuel depth bs = .ok (v, rest)) : 0 < bs.length := by
  cases bs with
  | nil =>
      cases fuel with
      | zero => cases h
      | succ fuel => cases h
  | cons b bs => exact Nat.zero_lt_succ _

/-- Whatever is read is read with twice as much fuel as there are octets. -/
theorem ample (fuel : Nat) : Ample fuel := by
  induction fuel with
  | zero =>
      refine ⟨fun _ h => ?_, fun _ h => ?_, fun _ h => ?_⟩
      · cases h
      · cases h
      · cases h
  | succ fuel ih =>
      refine ⟨fun {more} _ _ _ _ hmore h => ?_, fun {more} _ _ _ _ _ hmore h => ?_,
        fun {more} _ _ _ _ _ hmore h => ?_⟩
      · have hpos := length_pos_of_readValue h
        obtain ⟨more, rfl⟩ : ∃ n, more = n + 1 := ⟨more - 1, by omega⟩
        exact readValue_of_ample ih hmore h
      · obtain ⟨more, rfl⟩ : ∃ n, more = n + 1 := ⟨more - 1, by omega⟩
        exact readItems_of_ample ih (Nat.le_of_lt_succ hmore) h
      · obtain ⟨more, rfl⟩ : ∃ n, more = n + 1 := ⟨more - 1, by omega⟩
        exact readMembers_of_ample ih (Nat.le_of_lt_succ hmore) h

/-- A value that is read with any fuel is read with as much as its own octets are worth. -/
theorem readValue_fuelFor {fuel depth : Nat} {bs rest : Bytes} {v : Json}
    (h : readValue fuel depth bs = .ok (v, rest)) :
    readValue (fuelFor bs) depth bs = .ok (v, rest) :=
  (ample fuel).value (Nat.le_add_right _ 2) h

end Json

end Gateway
