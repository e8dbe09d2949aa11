import Gateway.Json.Reader
import Gateway.Proofs.Decimal.Canonical

/-!
# Integers Are Read Back

An integer is written in decimal, with a sign if it is below zero. The reader looks for more than
that: for a point, an exponent, and digits that no longer fit a word. Where a text was written none
of them is there, provided what follows does not begin with one, so the number that is read is the
one that the digits stand for, with its sign.

That a number fits is part of the number. `fillWord` drops digits that would not fit, and it drops
none here, because a row of digits that fits has no longer beginnings than itself.

## Main definitions

* `EndsNumber`: Whether octets end a number that stands before them.

## Theorems

* `fillWord_of_lt`: No digit is dropped from a number that fits.
* `readWhole_digits`: The digits of a number are read to their end.
* `readNumber_writeInt`: An integer is read back, and what follows it is left.
-/

namespace Gateway

namespace Json

/-- Whether octets end a number that stands before them: no digit goes on with it, and no point or
    exponent. -/
def EndsNumber (rest : Bytes) : Prop :=
  ∀ b ∈ rest.head?, Decimal.isDigit b = false ∧ b ≠ ascii '.' ∧ b ≠ ascii 'e' ∧ b ≠ ascii 'E'

/-! ## Digits That Fit -/

theorem le_foldl_push (ds : Bytes) (n : Nat) : n ≤ ds.foldl Decimal.push n := by
  induction ds generalizing n with
  | nil => exact Nat.le_refl n
  | cons b bs ih =>
      have hnext := ih (Decimal.push n b)
      have hpush : n ≤ Decimal.push n b := by
        rw [Decimal.push]
        omega
      exact Nat.le_trans hpush hnext

/-- No digit is dropped from a number that fits. -/
theorem fillWord_of_lt (ds : Bytes) (n : Nat)
    (h : ds.foldl Decimal.push n < 0x10000000000000000) :
    fillWord n ds = (ds.foldl Decimal.push n, []) := by
  induction ds generalizing n with
  | nil => rfl
  | cons b bs ih =>
      -- A number only grows with its digits, so each of its beginnings fits as well.
      have hfirst := Nat.lt_of_le_of_lt (le_foldl_push bs (Decimal.push n b)) h
      rw [fillWord, if_pos hfirst, ih (Decimal.push n b) h, List.foldl_cons]

theorem fillWord_digits (n : Nat) (h : n < 0x10000000000000000) :
    fillWord 0 (Decimal.digits n) = (n, []) := by
  have hvalue : (Decimal.digits n).foldl Decimal.push 0 = n := Decimal.value_digits n
  rw [fillWord_of_lt _ 0 (by rw [hvalue]; exact h), hvalue]

/-! ## Parts of a Number -/

theorem readWhole_digits (n : Nat) (rest : Bytes) (h : EndsNumber rest) :
    readWhole (Decimal.digits n ++ rest) = .ok (Decimal.digits n, rest) := by
  by_cases hn : n = 0
  · -- Zero is read alone, and what follows it must not be a digit.
    have hzero : (Decimal.digit 0 == ascii '0') = true := by decide
    rw [hn, Decimal.digits_zero, List.singleton_append, readWhole.eq_def]
    cases rest with
    | nil => simp only [if_pos hzero]
    | cons b bs => simp only [if_pos hzero, (h b rfl).1, Bool.false_eq_true, if_false]
  · -- Any other number begins with another digit, and its whole run is taken.
    rcases Decimal.digits_eq_cons n hn with ⟨d, ds, hdigits, hd, hlt⟩
    have hnot : ¬ (Decimal.digit d == ascii '0') = true := by
      rw [beq_iff_eq]
      intro hc
      have hnat := congrArg UInt8.toNat hc
      rw [Decimal.toNat_digit d hlt] at hnat
      exact hd (Nat.add_left_cancel hnat)
    have hspan := Decimal.spanDigits_append (Decimal.digits n) rest
      (Decimal.isDigit_of_mem_digits n) fun b hb => (h b hb).1
    rw [hdigits, List.cons_append] at hspan ⊢
    rw [readWhole.eq_def]
    simp only [if_neg hnot, if_pos (Decimal.isDigit_digit d hlt), hspan]

theorem readFraction_of_ends (rest : Bytes) (h : EndsNumber rest) :
    readFraction rest = .ok (none, rest) := by
  cases rest with
  | nil => rfl
  | cons b bs =>
      have hpoint : ¬ (b == ascii '.') = true := by
        rw [beq_iff_eq]
        exact (h b rfl).2.1
      rw [readFraction, if_neg hpoint]

theorem readExponent_of_ends (rest : Bytes) (h : EndsNumber rest) :
    readExponent rest = .ok (none, rest) := by
  cases rest with
  | nil => rfl
  | cons b bs =>
      have hletter : ¬ (b == ascii 'e' || b == ascii 'E') = true := by
        rw [Bool.or_eq_true, beq_iff_eq, beq_iff_eq, not_or]
        exact (h b rfl).2.2
      rw [readExponent.eq_def]
      exact if_neg hletter

theorem readUnsigned_digits (negative : Bool) (n : Nat) (rest : Bytes) (number : Number)
    (hends : EndsNumber rest)
    (h : Literal.number? ⟨negative, Decimal.digits n, none, none⟩ = some number) :
    readUnsigned negative (Decimal.digits n ++ rest) = .ok (number, rest) := by
  simp only [readUnsigned, readWhole_digits n rest hends, readFraction_of_ends rest hends,
    readExponent_of_ends rest hends, bind, Except.bind, h]

/-! ## Whole Numbers -/

theorem number?_natural (n : Nat) (h : n < 0x10000000000000000) :
    Literal.number? ⟨false, Decimal.digits n, none, none⟩ = some (.ofWord n h) := by
  simp only [Literal.number?, fillWord_digits n h, Option.isSome_none, List.isEmpty_nil,
    Bool.not_true, Bool.or_false, Bool.false_eq_true, if_false, dif_pos h]

theorem number?_negative (n : Nat) (h : 0 < n ∧ n ≤ 0x8000000000000000)
    (fits : -0x8000000000000000 ≤ -(n : Int) ∧ -(n : Int) < 0x10000000000000000) :
    Literal.number? ⟨true, Decimal.digits n, none, none⟩ = some (.integer (-(n : Int)) fits) := by
  simp only [Literal.number?, fillWord_digits n (by omega), Option.isSome_none, List.isEmpty_nil,
    Bool.not_true, Bool.or_false, Bool.false_eq_true, if_false, if_true, dif_pos h]

/-- What a number without a sign begins with is a digit, and so it is no sign. -/
theorem digits_startsNumber (n : Nat) :
    ∃ b bs, Decimal.digits n = b :: bs ∧ b ≠ ascii '-' ∧ Decimal.isDigit b = true := by
  cases hdigits : Decimal.digits n with
  | nil => exact absurd hdigits (Decimal.digits_ne_nil n)
  | cons b bs =>
      have hdigit := Decimal.isDigit_of_mem_digits n b (by rw [hdigits]; exact List.mem_cons_self)
      refine ⟨b, bs, rfl, fun hc => ?_, hdigit⟩
      rw [hc] at hdigit
      exact absurd hdigit (by decide)

/-- An integer is read back, and what follows it is left. -/
theorem readNumber_writeInt (n : Int) (fits : -0x8000000000000000 ≤ n ∧ n < 0x10000000000000000)
    (rest : Bytes) (hends : EndsNumber rest) :
    readNumber (writeInt n ++ rest) = .ok (.integer n fits, rest) := by
  by_cases hn : n < 0
  · -- The sign is read first, and the digits are those of the distance from zero.
    have hnumber := number?_negative n.natAbs (by omega) (by omega)
    have hback : -(n.natAbs : Int) = n := by omega
    simp only [hback] at hnumber
    rw [writeInt, if_pos hn, List.cons_append, readNumber, if_pos (beq_self_eq_true _)]
    exact readUnsigned_digits true n.natAbs rest _ hends hnumber
  · have hnumber := number?_natural n.natAbs (by omega)
    have hback : (n.natAbs : Int) = n := by omega
    simp only [Number.ofWord, hback] at hnumber
    rcases digits_startsNumber n.natAbs with ⟨b, bs, hdigits, hminus, _⟩
    have hread := readUnsigned_digits false n.natAbs rest _ hends hnumber
    rw [hdigits, List.cons_append] at hread
    rw [writeInt, if_neg hn, hdigits, List.cons_append, readNumber,
      if_neg (by rw [beq_iff_eq]; exact hminus), hread]

/-- What an integer begins with begins a number. -/
theorem writeInt_eq_cons (n : Int) : ∃ b bs, writeInt n = b :: bs ∧ startsNumber b = true := by
  by_cases hn : n < 0
  · exact ⟨ascii '-', Decimal.digits n.natAbs, by rw [writeInt, if_pos hn], rfl⟩
  · rcases digits_startsNumber n.natAbs with ⟨b, bs, hdigits, _, hdigit⟩
    refine ⟨b, bs, by rw [writeInt, if_neg hn, hdigits], ?_⟩
    rw [startsNumber, hdigit, Bool.or_true]

end Json

end Gateway
