import Mathlib.Algebra.Group.Nat.Defs
import Mathlib.Data.List.TakeDrop
import Gateway.Decimal.Digits
import Gateway.Proofs.Text.Encoding

/-!
# Numbers Survive Their Digits

A number is written by dividing by ten, so what is written last is what was left over first, and the
facts on `digits` go by induction along the quotients: the number is read back from its digits, they
are digits indeed, there are no more of them than powers of ten, and only zero is written with a
zero in front.

Readers take the longest run of digits. Where something else follows, the run that was written is
the run that is read (`spanDigits_append`).

## Theorems

* `value_digits`: A number is read back.
* `isDigit_of_mem_digits`: Digits are digits.
* `length_digits_le`: How many there are.
* `digits_zero`, `digits_eq_cons`: What a number begins with.
* `spanDigits_append`: A run of digits is read to its end.
-/

namespace Gateway

namespace Decimal

theorem toNat_digit (n : Nat) (h : n < 10) : (digit n).toNat = 48 + n :=
  Utf8.toNat_toUInt8 (48 + n) (by omega)

theorem isDigit_digit (n : Nat) (h : n < 10) : isDigit (digit n) = true := by
  rw [isDigit, toNat_digit n h, Bool.and_eq_true, decide_eq_true_eq, decide_eq_true_eq]
  omega

theorem digitValue_digit (n : Nat) (h : n < 10) : digitValue (digit n) = n := by
  rw [digitValue, toNat_digit n h, Nat.add_sub_cancel_left]

theorem digits_of_lt (n : Nat) (h : n < 10) : digits n = [digit n] := by
  rw [digits, if_pos h]

theorem digits_of_le (n : Nat) (h : ¬ n < 10) : digits n = digits (n / 10) ++ [digit (n % 10)] := by
  rw [digits, if_neg h]

theorem digits_zero : digits 0 = [digit 0] :=
  digits_of_lt 0 (by omega)

theorem digits_ne_nil (n : Nat) : digits n ≠ [] := by
  by_cases hn : n < 10
  · rw [digits_of_lt n hn]
    exact List.cons_ne_nil _ _
  · rw [digits_of_le n hn]
    exact List.append_ne_nil_of_right_ne_nil _ (List.cons_ne_nil _ _)

theorem value_append (ds : Bytes) (b : UInt8) : value (ds ++ [b]) = push (value ds) b := by
  simp only [value, List.foldl_append, List.foldl_cons, List.foldl_nil]

/-- A number is read back from its digits. -/
theorem value_digits (n : Nat) : value (digits n) = n := by
  induction n using digits.induct with
  | case1 n hn =>
      rw [digits_of_lt n hn, ← List.nil_append [digit n], value_append, push, digitValue_digit n hn]
      simp only [value, List.foldl_nil, Nat.zero_mul, Nat.zero_add]
  | case2 n hn ih =>
      -- The quotient is read back, and the digit left over is put behind it.
      rw [digits_of_le n hn, value_append, ih, push, digitValue_digit (n % 10) (by omega)]
      omega

theorem isDigit_of_mem_digits (n : Nat) (b : UInt8) (hb : b ∈ digits n) : isDigit b = true := by
  induction n using digits.induct with
  | case1 n hn =>
      rw [digits_of_lt n hn, List.mem_singleton] at hb
      rw [hb]
      exact isDigit_digit n hn
  | case2 n hn ih =>
      rw [digits_of_le n hn, List.mem_append, List.mem_singleton] at hb
      rcases hb with hb | hb
      · exact ih hb
      · rw [hb]
        exact isDigit_digit (n % 10) (by omega)

theorem length_digits_le (n k : Nat) (h : n < 10 ^ (k + 1)) : (digits n).length ≤ k + 1 := by
  induction k generalizing n with
  | zero =>
      rw [digits_of_lt n (by omega)]
      exact Nat.le_refl 1
  | succ k ih =>
      by_cases hn : n < 10
      · rw [digits_of_lt n hn, List.length_singleton]
        omega
      · have hquotient := ih (n / 10) (by rw [Nat.pow_succ] at h; omega)
        rw [digits_of_le n hn, List.length_append, List.length_singleton]
        omega

/-- Only zero is written with a zero in front. -/
theorem digits_eq_cons (n : Nat) (h : n ≠ 0) :
    ∃ d ds, digits n = digit d :: ds ∧ d ≠ 0 ∧ d < 10 := by
  induction n using digits.induct with
  | case1 n hn => exact ⟨n, [], digits_of_lt n hn, h, hn⟩
  | case2 n hn ih =>
      -- What the quotient begins with, the number begins with.
      rcases ih (by omega) with ⟨d, ds, hdigits, hd, hlt⟩
      refine ⟨d, ds ++ [digit (n % 10)], ?_, hd, hlt⟩
      rw [digits_of_le n hn, hdigits, List.cons_append]

/-- A run of digits is read to its end, where something else follows. -/
theorem spanDigits_append (ds rest : Bytes) (hds : ∀ b ∈ ds, isDigit b = true)
    (hrest : ∀ b ∈ rest.head?, isDigit b = false) : spanDigits (ds ++ rest) = (ds, rest) := by
  -- Where something else follows, the run has come to its end.
  have hstop : rest.takeWhile isDigit = [] ∧ rest.dropWhile isDigit = rest := by
    cases rest with
    | nil => exact ⟨rfl, rfl⟩
    | cons b bs =>
        have hb := hrest b rfl
        simp only [List.takeWhile, List.dropWhile, hb, true_and]
  rw [spanDigits, List.span_eq_takeWhile_dropWhile, List.takeWhile_append_of_pos hds,
    List.dropWhile_append_of_pos hds, hstop.1, hstop.2, List.append_nil]

end Decimal

end Gateway
