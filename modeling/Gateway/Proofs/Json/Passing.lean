import Mathlib.Data.List.DropRight
import Mathlib.Data.List.TakeDrop
import Gateway.Json.Skip
import Gateway.Proofs.Json.RoundTrip

/-!
# What Is Read Can Be Passed Over

Passing over a value is more lenient than reading it, and goes by other steps: there is no depth to
count down, a pair of surrogates is two escapes, and a number is nothing but its digits. Still it
must come to the same place. A record passes over a member that it has no use for, and what it reads
behind that member should be what the sender has put there. So whatever is read is passed over, and
the octets that are left are the same (`passedOver`).

Both are bounded by fuel, and a record has other fuel than a value that is read from the same
octets. With more fuel the same is passed over (`lasts_of_fuel`), so the octets that are left do not
depend on how much there was.

Both readers look at the first octet that is no blank. What a value or a member can begin with is
told once (`ValueAt`, `KeyAt`), and what is passed over is compared with each of the ways to read.

## Main definitions

* `ValueAt`, `KeyAt`: A value, or the key of a member, stands at the front of some octets.
* `PassedOver`: What is read with so much fuel is passed over with as much.
* `Lasts`: What is passed over with so much fuel is passed over with more.

## Theorems

* `skipText_of_readString`, `skipNumber_of_readNumber`: Strings and numbers.
* `valueAt_of_readValue`, `readMembers_first`: What is read stands there.
* `passedOver`, `lasts_of_fuel`: Values, by induction on the fuel.
* `eq_of_readValue_skipValue`, `eq_of_readValue`: The octets that are left are the same.
-/

namespace Gateway

/-- Of two steps one after the other, both have been made. -/
theorem exists_of_bind_eq_ok {ε α β : Type} {first : Except ε α} {second : α → Except ε β} {b : β}
    (h : first >>= second = .ok b) : ∃ a, first = .ok a ∧ second a = .ok b := by
  cases first with
  | error e => cases h
  | ok a => exact ⟨a, rfl, h⟩

theorem exists_of_map_eq_ok {ε α β : Type} {first : Except ε α} {f : α → β} {b : β}
    (h : first.map f = .ok b) : ∃ a, first = .ok a ∧ f a = b := by
  cases first with
  | error e => cases h
  | ok a => exact ⟨a, rfl, Except.ok.inj h⟩

theorem eq_of_not_bne {b c : UInt8} (h : ¬ (b != c) = true) : b = c :=
  Decidable.not_not.mp (mt bne_iff_ne.mpr h)

namespace Json

/-! ## Strings -/

theorem skipText_plain {b : UInt8} (bs : Bytes) (hquote : ¬ (b == ascii '"') = true)
    (hslash : ¬ (b == ascii '\\') = true) (hcontrol : ¬ b.toNat < 32) :
    skipText (b :: bs) = skipText bs := by
  rw [skipText.eq_def]
  simp only [if_neg hquote, if_neg hslash, if_neg hcontrol]

theorem skipText_short {e c : UInt8} (bs : Bytes) (hletter : ¬ (e == ascii 'u') = true)
    (h : escaped? e = some c) : skipText (ascii '\\' :: e :: bs) = skipText bs := by
  have hslash : ¬ (ascii '\\' == ascii '"') = true := by decide
  rw [skipText.eq_def]
  simp only [if_neg hslash, beq_self_eq_true, if_true, if_neg hletter, h, Option.isSome]

theorem skipText_number {h₁ h₂ h₃ h₄ : UInt8} (bs : Bytes) {n : Nat}
    (h : hexWord? h₁ h₂ h₃ h₄ = some n) :
    skipText (ascii '\\' :: ascii 'u' :: h₁ :: h₂ :: h₃ :: h₄ :: bs) = skipText bs := by
  have hslash : ¬ (ascii '\\' == ascii '"') = true := by decide
  rw [skipText.eq_def]
  simp only [if_neg hslash, beq_self_eq_true, if_true, h, Option.isSome]

/-- Where reading goes on, passing over goes on too. A pair of surrogates, which is read at once, is
    passed over in two steps. -/
theorem readText_step {acc bs found rest : Bytes} {b : UInt8} (hquote : ¬ (b == ascii '"') = true)
    (h : readText acc (b :: bs) = .ok (found, rest)) :
    ∃ acc' more, more.length ≤ bs.length ∧ readText acc' more = .ok (found, rest)
      ∧ skipText (b :: bs) = skipText more := by
  rw [readText.eq_def] at h
  simp only [if_neg hquote] at h
  split at h
  · rename_i hslash
    obtain rfl := eq_of_beq hslash
    split at h
    · cases h
    rename_i e bs
    split at h
    · rename_i hletter
      obtain rfl := eq_of_beq hletter
      split at h
      · rename_i h₁ h₂ h₃ h₄ bs
        split at h
        · cases h
        rename_i high hhigh
        split at h
        · cases h
        split at h
        · split at h
          · cases h
          split at h
          · cases h
          rename_i hs
          split at h
          · cases h
          split at h
          · cases h
          rename_i hu
          obtain rfl := eq_of_not_bne hs
          obtain rfl := eq_of_not_bne hu
          split at h
          · split at h
            · cases h
            rename_i low hlow
            split at h
            · exact ⟨_, _, by simp only [List.length_cons]; omega, h,
                (skipText_number _ hhigh).trans (skipText_number _ hlow)⟩
            · cases h
          · cases h
        · exact ⟨_, _, by simp only [List.length_cons]; omega, h, skipText_number _ hhigh⟩
      · cases h
    · rename_i hletter
      split at h
      · rename_i c hc
        exact ⟨_, _, by simp only [List.length_cons]; omega, h, skipText_short _ hletter hc⟩
      · cases h
  · rename_i hslash
    split at h
    · cases h
    · rename_i hcontrol
      exact ⟨_, _, Nat.le_refl _, h, skipText_plain bs hquote hslash hcontrol⟩

/-- A text that is read is passed over. The induction is on its length, as a step may take more than
    one octet. -/
theorem skipText_of_readText (n : Nat) {acc bs found rest : Bytes} (hlength : bs.length ≤ n)
    (h : readText acc bs = .ok (found, rest)) : skipText bs = .ok rest := by
  induction n generalizing acc bs with
  | zero =>
      rw [List.length_eq_zero_iff.mp (Nat.le_zero.mp hlength)] at h
      cases h
  | succ n ih =>
      cases bs with
      | nil => cases h
      | cons b bs =>
          by_cases hquote : (b == ascii '"') = true
          · rw [readText.eq_def] at h
            simp only [if_pos hquote] at h
            cases h
            rw [skipText.eq_def]
            exact if_pos hquote
          · rcases readText_step hquote h with ⟨acc', more, hmore, hread, hskip⟩
            exact hskip.trans (ih (Nat.le_trans hmore (Nat.le_of_succ_le_succ hlength)) hread)

theorem skipText_of_readString {bs rest : Bytes} {s : String} (h : readString bs = .ok (s, rest)) :
    skipText bs = .ok rest := by
  rw [readString] at h
  split at h
  · cases h
  rename_i octets rest' hread
  split at h
  · cases h
    exact skipText_of_readText bs.length (Nat.le_refl _) hread
  · cases h

/-! ## Numbers -/

theorem skipDigits_of_spanDigits {bs ds rest : Bytes} (h : Decimal.spanDigits bs = (ds, rest))
    (hds : ds ≠ []) : skipDigits bs = .ok rest := by
  rw [skipDigits, h]
  cases ds with
  | nil => exact absurd rfl hds
  | cons d ds => rfl

theorem skipDigits_of_readExponentDigits {negative : Bool} {bs rest : Bytes}
    {exponent : Option (Bool × Bytes)}
    (h : readExponentDigits negative bs = .ok (exponent, rest)) : skipDigits bs = .ok rest := by
  rw [readExponentDigits] at h
  cases hspan : Decimal.spanDigits bs with
  | mk ds rest' =>
      rw [hspan] at h
      cases ds with
      | nil =>
          cases rest' with
          | nil => cases h
          | cons c rest' => cases h
      | cons d ds =>
          cases h
          exact skipDigits_of_spanDigits hspan (List.cons_ne_nil d ds)

theorem skipExponent_of_readExponent {bs rest : Bytes} {exponent : Option (Bool × Bytes)}
    (h : readExponent bs = .ok (exponent, rest)) : skipExponent bs = .ok rest := by
  cases bs with
  | nil =>
      cases h
      rfl
  | cons b bs =>
      rw [readExponent.eq_def] at h
      rw [skipExponent.eq_def]
      dsimp only at h ⊢
      split at h
      · rw [if_pos ‹_›]
        cases bs with
        | nil => cases h
        | cons s bs =>
            simp only at h ⊢
            split at h
            · rw [if_pos (by simp only [‹(s == ascii '-') = true›, Bool.true_or])]
              exact skipDigits_of_readExponentDigits h
            split at h
            · rw [if_pos (by simp only [‹(s == ascii '+') = true›, Bool.or_true])]
              exact skipDigits_of_readExponentDigits h
            · rw [if_neg (by simp only [Bool.or_eq_true, not_or]; exact ⟨‹_›, ‹_›⟩)]
              exact skipDigits_of_readExponentDigits h
      · rw [if_neg ‹_›]
        cases h
        rfl

/-- Passes over what may follow the digits before the point. -/
def skipPlaces : Bytes → Except Fault Bytes
  | [] => .ok []
  | b :: bs => if b == ascii '.' then skipDigits bs >>= skipExponent else skipExponent (b :: bs)

theorem skipUnsigned_of_readWhole {bs whole left : Bytes} (h : readWhole bs = .ok (whole, left)) :
    skipUnsigned bs = skipPlaces left := by
  cases bs with
  | nil => cases h
  | cons b bs =>
      rw [readWhole.eq_def] at h
      rw [skipUnsigned.eq_def]
      dsimp only at h ⊢
      split at h
      · rw [if_pos ‹_›]
        split at h
        · split at h
          · cases h
          · simp only [if_neg ‹_›]
            cases h
            rfl
        · cases h
          rfl
      · rw [if_neg ‹_›]
        split at h
        · rename_i hdigit
          have hspan := Except.ok.inj h
          -- The first octet is a digit, so there are some.
          have hdigits : whole ≠ [] := by
            rw [Decimal.spanDigits, List.span_eq_takeWhile_dropWhile, List.takeWhile_cons,
              if_pos hdigit] at hspan
            rw [← (Prod.mk.inj hspan).1]
            exact List.cons_ne_nil _ _
          rw [skipDigits_of_spanDigits hspan hdigits]
          cases left with
          | nil => rfl
          | cons c left => rfl
        · cases h

theorem skipPlaces_of_read {bs left rest : Bytes} {fraction : Option Bytes}
    {exponent : Option (Bool × Bytes)} (hfraction : readFraction bs = .ok (fraction, left))
    (hexponent : readExponent left = .ok (exponent, rest)) : skipPlaces bs = .ok rest := by
  have hskip := skipExponent_of_readExponent hexponent
  cases bs with
  | nil =>
      cases hfraction
      cases hexponent
      rfl
  | cons b bs =>
      rw [readFraction] at hfraction
      rw [skipPlaces]
      split at hfraction
      · rw [if_pos ‹_›]
        cases hspan : Decimal.spanDigits bs with
        | mk ds more =>
            rw [hspan] at hfraction
            cases ds with
            | nil =>
                cases more with
                | nil => cases hfraction
                | cons c more => cases hfraction
            | cons d ds =>
                cases hfraction
                rw [skipDigits_of_spanDigits hspan (List.cons_ne_nil d ds)]
                exact hskip
      · rw [if_neg ‹_›]
        cases hfraction
        exact hskip

theorem skipUnsigned_of_readUnsigned {negative : Bool} {bs rest : Bytes} {n : Number}
    (h : readUnsigned negative bs = .ok (n, rest)) : skipUnsigned bs = .ok rest := by
  rw [readUnsigned] at h
  rcases exists_of_bind_eq_ok h with ⟨⟨whole, afterWhole⟩, hwhole, h⟩
  rcases exists_of_bind_eq_ok h with ⟨⟨fraction, afterFraction⟩, hfraction, h⟩
  rcases exists_of_bind_eq_ok h with ⟨⟨exponent, afterExponent⟩, hexponent, h⟩
  rw [skipUnsigned_of_readWhole hwhole]
  dsimp only at h
  split at h
  · cases h
    exact skipPlaces_of_read hfraction hexponent
  · cases h

theorem skipNumber_of_readNumber {bs rest : Bytes} {n : Number}
    (h : readNumber bs = .ok (n, rest)) : skipNumber bs = .ok rest := by
  cases bs with
  | nil => cases h
  | cons b bs =>
      rw [readNumber] at h
      rw [skipNumber]
      split at h
      · rw [if_pos ‹_›]
        exact skipUnsigned_of_readUnsigned h
      · rw [if_neg ‹_›]
        exact skipUnsigned_of_readUnsigned h

/-! ## What Is Read -/

/-- A value stands at the front of some octets, and it is read from the first of them on. Behind a
    bracket so much fuel is left. -/
inductive ValueAt (fuel : Nat) : Nat → Bytes → Json → Bytes → Prop
  | null {depth : Nat} {inside rest : Bytes} (h : expect (utf8 "ull") inside = .ok rest) :
      ValueAt fuel depth (ascii 'n' :: inside) null rest
  | yes {depth : Nat} {inside rest : Bytes} (h : expect (utf8 "rue") inside = .ok rest) :
      ValueAt fuel depth (ascii 't' :: inside) (bool true) rest
  | no {depth : Nat} {inside rest : Bytes} (h : expect (utf8 "alse") inside = .ok rest) :
      ValueAt fuel depth (ascii 'f' :: inside) (bool false) rest
  | string {depth : Nat} {inside rest : Bytes} {s : String}
      (h : readString inside = .ok (s, rest)) :
      ValueAt fuel depth (ascii '"' :: inside) (string s) rest
  | number {depth : Nat} {b : UInt8} {inside rest : Bytes} {n : Number}
      (hstarts : startsNumber b = true) (h : readNumber (b :: inside) = .ok (n, rest)) :
      ValueAt fuel depth (b :: inside) (number n) rest
  | noItems {depth : Nat} {inside rest : Bytes} (h : skipBlanks inside = ascii ']' :: rest) :
      ValueAt fuel (depth + 1) (ascii '[' :: inside) (array []) rest
  | items {depth : Nat} {c : UInt8} {inside more rest : Bytes} {v : Json}
      (hfront : skipBlanks inside = c :: more) (hc : c ≠ ascii ']')
      (h : readItems fuel depth [] inside = .ok (v, rest)) :
      ValueAt fuel (depth + 1) (ascii '[' :: inside) v rest
  | noMembers {depth : Nat} {inside rest : Bytes} (h : skipBlanks inside = ascii '}' :: rest) :
      ValueAt fuel (depth + 1) (ascii '{' :: inside) (object []) rest
  | members {depth : Nat} {c : UInt8} {inside more rest : Bytes} {v : Json}
      (hfront : skipBlanks inside = c :: more) (hc : c ≠ ascii '}')
      (h : readMembers fuel depth [] inside = .ok (v, rest)) :
      ValueAt fuel (depth + 1) (ascii '{' :: inside) v rest

/-- Whatever is read is read from behind the blanks, and in one of these ways. -/
theorem valueAt_of_readValue {fuel depth : Nat} {bs rest : Bytes} {v : Json}
    (h : readValue (fuel + 1) depth bs = .ok (v, rest)) :
    ValueAt fuel depth (skipBlanks bs) v rest := by
  rw [readValue] at h
  split at h
  · cases h
  rename_i b inside hblanks
  rw [hblanks]
  split at h
  · rename_i hb
    obtain rfl := eq_of_beq hb
    rcases exists_of_map_eq_ok h with ⟨after, hword, hfound⟩
    cases hfound
    exact .null hword
  split at h
  · rename_i hb
    obtain rfl := eq_of_beq hb
    rcases exists_of_map_eq_ok h with ⟨after, hword, hfound⟩
    cases hfound
    exact .yes hword
  split at h
  · rename_i hb
    obtain rfl := eq_of_beq hb
    rcases exists_of_map_eq_ok h with ⟨after, hword, hfound⟩
    cases hfound
    exact .no hword
  split at h
  · rename_i hb
    obtain rfl := eq_of_beq hb
    split at h
    · cases h
    rename_i hread
    cases h
    exact .string hread
  split at h
  · rename_i hstarts
    split at h
    · cases h
    rename_i hread
    cases h
    exact .number hstarts hread
  split at h
  · rename_i hb
    obtain rfl := eq_of_beq hb
    split at h
    · cases h
    split at h
    · cases h
    rename_i c more hfront
    split at h
    · rename_i hc
      obtain rfl := eq_of_beq hc
      cases h
      exact .noItems hfront
    · rename_i hc
      exact .items hfront (mt beq_iff_eq.mpr hc) h
  split at h
  · rename_i hb
    obtain rfl := eq_of_beq hb
    split at h
    · cases h
    split at h
    · cases h
    rename_i c more hfront
    split at h
    · rename_i hc
      obtain rfl := eq_of_beq hc
      cases h
      exact .noMembers hfront
    · rename_i hc
      exact .members hfront (mt beq_iff_eq.mpr hc) h
  · cases h

/-- A key stands at the front of some octets, and these follow its colon. -/
def KeyAt (bs : Bytes) (key : String) (after : Bytes) : Prop :=
  ∃ inside colon, skipBlanks bs = ascii '"' :: inside ∧ readString inside = .ok (key, colon)
    ∧ readColon colon = .ok after

/-- Where members of a value are read, the first is a key with its value, and behind it stands a
    brace or a comma. -/
theorem readMembers_first {fuel depth : Nat} {acc : List (String × Json)} {bs rest : Bytes}
    {v : Json} (h : readMembers (fuel + 1) depth acc bs = .ok (v, rest)) :
    ∃ key after w next c more, KeyAt bs key after ∧ readValue fuel depth after = .ok (w, next)
      ∧ skipBlanks next = c :: more
      ∧ (c = ascii '}' ∧ v = object (insert key w acc) ∧ rest = more
        ∨ c = ascii ',' ∧ readMembers fuel depth (insert key w acc) more = .ok (v, rest)) := by
  rw [readMembers] at h
  split at h
  · cases h
  rename_i q inside hquote
  split at h
  · cases h
  rename_i hq
  obtain rfl := eq_of_not_bne hq
  split at h
  · cases h
  rename_i key colon hkey
  split at h
  · cases h
  rename_i after hcolon
  split at h
  · cases h
  rename_i w next hvalue
  split at h
  · cases h
  rename_i c more hend
  refine ⟨key, after, w, next, c, more, ⟨inside, colon, hquote, hkey, hcolon⟩, hvalue, hend, ?_⟩
  split at h
  · rename_i hbrace
    cases h
    exact Or.inl ⟨eq_of_beq hbrace, rfl, rfl⟩
  split at h
  · rename_i hcomma
    exact Or.inr ⟨eq_of_beq hcomma, h⟩
  · cases h

/-! ## Values -/

theorem skipBlanks_skipBlanks (bs : Bytes) : skipBlanks (skipBlanks bs) = skipBlanks bs :=
  List.dropWhile_idempotent isBlank bs

theorem skipValue_skipBlanks (fuel : Nat) (bs : Bytes) :
    skipValue fuel (skipBlanks bs) = skipValue fuel bs := by
  cases fuel with
  | zero => rfl
  | succ fuel => rw [skipValue, skipValue, skipBlanks_skipBlanks]

theorem skipValue_number {fuel : Nat} {b : UInt8} (bs : Bytes) (h : startsNumber b = true) :
    skipValue (fuel + 1) (b :: bs) = skipNumber (b :: bs) := by
  rw [skipValue, skipBlanks_cons b bs (isBlank_of_startsNumber b h)]
  simp only [if_neg (not_beq_of_startsNumber b 'n' h rfl),
    if_neg (not_beq_of_startsNumber b 't' h rfl), if_neg (not_beq_of_startsNumber b 'f' h rfl),
    if_neg (not_beq_of_startsNumber b '"' h rfl), if_pos h]

theorem skipValue_bracket {fuel : Nat} {c : UInt8} {inside more : Bytes}
    (h : skipBlanks inside = c :: more) :
    skipValue (fuel + 1) (ascii '[' :: inside)
      = if c == ascii ']' then .ok more else skipItems fuel inside := by
  have hfront : skipBlanks (ascii '[' :: inside) = ascii '[' :: inside := rfl
  rw [skipValue, hfront]
  simp only [h]
  rfl

theorem skipValue_brace {fuel : Nat} {c : UInt8} {inside more : Bytes}
    (h : skipBlanks inside = c :: more) :
    skipValue (fuel + 1) (ascii '{' :: inside)
      = if c == ascii '}' then .ok more else skipMembers fuel inside := by
  have hfront : skipBlanks (ascii '{' :: inside) = ascii '{' :: inside := rfl
  rw [skipValue, hfront]
  simp only [h]
  rfl

theorem skipMembers_first {fuel : Nat} {c : UInt8} {bs after next more : Bytes} {key : String}
    (hkey : KeyAt bs key after) (hvalue : skipValue fuel after = .ok next)
    (hend : skipBlanks next = c :: more) :
    skipMembers (fuel + 1) bs
      = if c == ascii '}' then .ok more
        else if c == ascii ',' then skipMembers fuel more else .error .malformed := by
  rcases hkey with ⟨inside, colon, hquote, hread, hcolon⟩
  have hq : ¬ (ascii '"' != ascii '"') = true := by decide
  rw [skipMembers, hquote]
  simp only [if_neg hq, skipText_of_readString hread, hcolon, hvalue, hend]

/-- What is read with so much fuel is passed over with as much or more. -/
structure PassedOver (fuel : Nat) : Prop where
  value {depth : Nat} {bs rest : Bytes} {v : Json} (h : readValue fuel depth bs = .ok (v, rest)) :
    skipValue fuel bs = .ok rest
  items {depth : Nat} {acc : List Json} {bs rest : Bytes} {v : Json}
    (h : readItems fuel depth acc bs = .ok (v, rest)) : skipItems fuel bs = .ok rest
  members {depth : Nat} {acc : List (String × Json)} {bs rest : Bytes} {v : Json}
    (h : readMembers fuel depth acc bs = .ok (v, rest)) : skipMembers fuel bs = .ok rest

section PassedOver

variable {fuel depth : Nat} {bs rest : Bytes} {v : Json} (passed : PassedOver fuel)
include passed

theorem skipValue_of_passedOver (h : readValue (fuel + 1) depth bs = .ok (v, rest)) :
    skipValue (fuel + 1) bs = .ok rest := by
  have hvalue := valueAt_of_readValue h
  rw [← skipValue_skipBlanks]
  generalize skipBlanks bs = front at hvalue ⊢
  cases hvalue with
  | null hword => exact hword
  | yes hword => exact hword
  | no hword => exact hword
  | string hread => exact skipText_of_readString hread
  | number hstarts hread =>
      exact (skipValue_number _ hstarts).trans (skipNumber_of_readNumber hread)
  | noItems hclose => exact skipValue_bracket hclose
  | items hfront hc hread =>
      exact (skipValue_bracket hfront).trans ((if_neg (mt beq_iff_eq.mp hc)).trans
        (passed.items hread))
  | noMembers hclose => exact skipValue_brace hclose
  | members hfront hc hread =>
      exact (skipValue_brace hfront).trans ((if_neg (mt beq_iff_eq.mp hc)).trans
        (passed.members hread))

theorem skipItems_of_passedOver {acc : List Json}
    (h : readItems (fuel + 1) depth acc bs = .ok (v, rest)) :
    skipItems (fuel + 1) bs = .ok rest := by
  rw [readItems] at h
  rw [skipItems]
  split at h
  · cases h
  · rename_i w after hvalue
    rw [passed.value hvalue]
    cases hafter : skipBlanks after with
    | nil =>
        rw [hafter] at h
        cases h
    | cons c more =>
        rw [hafter] at h
        dsimp only at h
        simp only [hafter]
        split at h
        · rw [if_pos ‹_›]
          cases h
          rfl
        rw [if_neg ‹_›]
        split at h
        · rw [if_pos ‹_›]
          exact passed.items h
        · cases h

theorem skipMembers_of_passedOver {acc : List (String × Json)}
    (h : readMembers (fuel + 1) depth acc bs = .ok (v, rest)) :
    skipMembers (fuel + 1) bs = .ok rest := by
  rcases readMembers_first h with ⟨key, after, w, next, c, more, hkey, hvalue, hend, hlast⟩
  rw [skipMembers_first hkey (passed.value hvalue) hend]
  rcases hlast with ⟨rfl, -, rfl⟩ | ⟨rfl, hmembers⟩
  · rfl
  · exact passed.members hmembers

end PassedOver

/-- What is read is passed over, and the same octets are left. -/
theorem passedOver (fuel : Nat) : PassedOver fuel := by
  induction fuel with
  | zero =>
      refine ⟨fun h => ?_, fun h => ?_, fun h => ?_⟩
      · cases h
      · cases h
      · cases h
  | succ fuel ih =>
      exact ⟨skipValue_of_passedOver ih, skipItems_of_passedOver ih, skipMembers_of_passedOver ih⟩

/-! ## Fuel -/

/-- What is passed over with so much fuel is passed over with more. -/
structure Lasts (fuel : Nat) : Prop where
  value {more : Nat} {bs rest : Bytes} (hle : fuel ≤ more) (h : skipValue fuel bs = .ok rest) :
    skipValue more bs = .ok rest
  items {more : Nat} {bs rest : Bytes} (hle : fuel ≤ more) (h : skipItems fuel bs = .ok rest) :
    skipItems more bs = .ok rest
  members {more : Nat} {bs rest : Bytes} (hle : fuel ≤ more)
    (h : skipMembers fuel bs = .ok rest) : skipMembers more bs = .ok rest

section Lasts

variable {fuel more : Nat} {bs rest : Bytes} (lasts : Lasts fuel) (hle : fuel ≤ more)
include lasts hle

/-- Only behind a bracket does the fuel matter. -/
theorem skipValue_of_lasts (h : skipValue (fuel + 1) bs = .ok rest) :
    skipValue (more + 1) bs = .ok rest := by
  rw [skipValue] at h ⊢
  split at h
  · cases h
  · split at h
    · rwa [if_pos ‹_›]
    rw [if_neg ‹_›]
    split at h
    · rwa [if_pos ‹_›]
    rw [if_neg ‹_›]
    split at h
    · rwa [if_pos ‹_›]
    rw [if_neg ‹_›]
    split at h
    · rwa [if_pos ‹_›]
    rw [if_neg ‹_›]
    split at h
    · rwa [if_pos ‹_›]
    rw [if_neg ‹_›]
    split at h
    · rw [if_pos ‹_›]
      split at h
      · cases h
      · split at h
        · rwa [if_pos ‹_›]
        · rw [if_neg ‹_›]
          exact lasts.items hle h
    rw [if_neg ‹_›]
    split at h
    · rw [if_pos ‹_›]
      split at h
      · cases h
      · split at h
        · rwa [if_pos ‹_›]
        · rw [if_neg ‹_›]
          exact lasts.members hle h
    · cases h

theorem skipItems_of_lasts (h : skipItems (fuel + 1) bs = .ok rest) :
    skipItems (more + 1) bs = .ok rest := by
  rw [skipItems] at h ⊢
  split at h
  · cases h
  · rename_i hvalue
    rw [lasts.value hle hvalue]
    simp only
    split at h
    · cases h
    · split at h
      · rwa [if_pos ‹_›]
      rw [if_neg ‹_›]
      split at h
      · rw [if_pos ‹_›]
        exact lasts.items hle h
      · cases h

theorem skipMembers_of_lasts (h : skipMembers (fuel + 1) bs = .ok rest) :
    skipMembers (more + 1) bs = .ok rest := by
  rw [skipMembers] at h ⊢
  split at h
  · cases h
  split at h
  · cases h
  rw [if_neg ‹_›]
  split at h
  · cases h
  split at h
  · cases h
  split at h
  · cases h
  · rename_i hvalue
    simp only [lasts.value hle hvalue]
    split at h
    · cases h
    · split at h
      · rwa [if_pos ‹_›]
      rw [if_neg ‹_›]
      split at h
      · rw [if_pos ‹_›]
        exact lasts.members hle h
      · cases h

end Lasts

/-- What is passed over with so much fuel is passed over with more, and the same octets are left. -/
theorem lasts_of_fuel (fuel : Nat) : Lasts fuel := by
  induction fuel with
  | zero =>
      refine ⟨fun _ h => ?_, fun _ h => ?_, fun _ h => ?_⟩
      · cases h
      · cases h
      · cases h
  | succ fuel ih =>
      refine ⟨fun {more} _ _ hle h => ?_, fun {more} _ _ hle h => ?_,
        fun {more} _ _ hle h => ?_⟩
      all_goals obtain ⟨more, rfl⟩ : ∃ n, more = n + 1 := ⟨more - 1, by omega⟩
      · exact skipValue_of_lasts ih (Nat.le_of_succ_le_succ hle) h
      · exact skipItems_of_lasts ih (Nat.le_of_succ_le_succ hle) h
      · exact skipMembers_of_lasts ih (Nat.le_of_succ_le_succ hle) h

/-- Whatever the fuel, the same octets are left. -/
theorem eq_of_skipValue {fuel more : Nat} {bs left rest : Bytes}
    (hleft : skipValue fuel bs = .ok left) (hrest : skipValue more bs = .ok rest) :
    left = rest := by
  have h₁ := (lasts_of_fuel fuel).value (Nat.le_max_left fuel more) hleft
  have h₂ := (lasts_of_fuel more).value (Nat.le_max_right fuel more) hrest
  exact Except.ok.inj (h₁.symm.trans h₂)

/-- Reading leaves what passing over leaves. -/
theorem eq_of_readValue_skipValue {fuel more depth : Nat} {bs left rest : Bytes} {v : Json}
    (hread : readValue fuel depth bs = .ok (v, left)) (hskip : skipValue more bs = .ok rest) :
    left = rest :=
  eq_of_skipValue ((passedOver fuel).value hread) hskip

/-- Whatever the fuel and however many brackets may be opened, reading leaves the same octets. -/
theorem eq_of_readValue {fuel more depth depth' : Nat} {bs left rest : Bytes} {v w : Json}
    (hleft : readValue fuel depth bs = .ok (v, left))
    (hrest : readValue more depth' bs = .ok (w, rest)) : left = rest :=
  eq_of_readValue_skipValue hleft ((passedOver more).value hrest)

end Json

end Gateway
