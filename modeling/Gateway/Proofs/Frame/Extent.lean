import Mathlib.Data.Nat.Digits.Lemmas
import Gateway.Proofs.Frame.Grammar
import Gateway.Proofs.Frame.Stream

/-!
# How Far a Frame Reaches

Before the decoder asks whether a frame is there in full, it adds up how far the frame reaches: over
the header, the delimiter and as many octets as the header announces. The sum has to be a word. What
is announced comes from the other end, and nothing bounds it but the limit, which may itself be any
word.

A header has at most twenty digits, so there is room for it and for the delimiter as long as the
announced length is below the largest word by twenty-one or more. Then the sum is a word, the
decoder asks for exactly the octets that are missing, and what it cuts off is there (`Measured`).
The lengths above that all have twenty digits, so for every one of them the sum is no word and the
decoder breaks down (`Overran`), whatever came behind the header.

Even where the sum is right the decoder may break down, since room is made for the whole frame while
some of it is missing, and a buffer may hold less than half of what a word can count. Headers may
lead with zeros, so a limit that is to rule this out has to leave room for twenty digits too.

## Main definitions

* `Measured`: A frame is measured as it is.
* `Overran`: The measure of a frame ran over.

## Theorems

* `lt_pow_of_numeral`: Digits stand for less than a power of ten.
* `measured_of_lt`, `overran_of_le`: The two sides of the edge.
* `frames_measured`: Which frames are measured as they are, and under which limits all are.
-/

namespace Gateway

namespace Frame

/-- A frame is measured as it is, and what is cut off from the buffer is there. -/
structure Measured (limit : Nat) (buffer header : Bytes) (n : Nat) : Prop where
  /-- The sum is a word. -/
  sum : header.length + 1 + n < 0x10000000000000000
  /-- Where the buffer holds as much, it holds the header with the delimiter, and behind that the
      body. -/
  cutting : holds (header.length + 1 + n) buffer = true →
    header.length + 1 ≤ buffer.length ∧ n ≤ (buffer.drop (header.length + 1)).length
  /-- Then the body is opened. -/
  opening : header.length + 1 + n ≤ buffer.length →
    decode limit buffer = opened n (buffer.drop (header.length + 1))
  /-- The decoder waits as long as something is missing, if a buffer may hold the frame. -/
  waiting : decode limit buffer = .nothing
    ↔ buffer.length < header.length + 1 + n ∧ header.length + 1 + n < 0x8000000000000000
  /-- It breaks down for want of room if none may. -/
  breaking : decode limit buffer = .refused (.broken .room) buffer
    ↔ buffer.length < header.length + 1 + n ∧ 0x8000000000000000 ≤ header.length + 1 + n

/-- The measure of a frame ran over. -/
structure Overran (limit : Nat) (buffer header : Bytes) (n : Nat) : Prop where
  /-- The sum is no word. -/
  sum : 0x10000000000000000 ≤ header.length + 1 + n
  /-- The decoder breaks down, and nothing is taken. -/
  breaking : decode limit buffer = .refused (.broken .sum) buffer

/-! ## Headers -/

/-- Digits stand for less than the power of ten that has one more. -/
theorem lt_pow_of_numeral {ds : Bytes} {n : Nat} (h : Numeral ds n) : n < 10 ^ ds.length := by
  have hdigits : ∀ d ∈ ds.reverse.map fun b => b.toNat - 48, d < 10 := by
    intro d hd
    rcases List.mem_map.mp hd with ⟨b, hb, rfl⟩
    have hnumeric := h.digits b (List.mem_reverse.mp hb)
    unfold IsNumeric at hnumeric
    omega
  have hlt := Nat.ofDigits_lt_base_pow_length (by omega) hdigits
  rw [h.value, List.length_map, List.length_reverse] at hlt
  exact hlt

/-- A length that close to the largest word takes all the digits there may be. -/
theorem length_of_heads {buffer header tail : Bytes} {n : Nat} (h : Heads buffer header n tail)
    (hn : 0x10000000000000000 ≤ n + 21) : header.length = 20 := by
  have hlt := lt_pow_of_numeral h.numeral
  have hshort := h.short
  by_contra hne
  have hpow : 10 ^ header.length ≤ 10 ^ 19 := Nat.pow_le_pow_right (by omega) (by omega)
  omega

theorem length_buffer_of_heads {buffer header tail : Bytes} {n : Nat}
    (h : Heads buffer header n tail) : buffer.length = header.length + 1 + tail.length := by
  rw [h.split, List.length_append, List.length_cons]
  omega

theorem drop_of_heads {buffer header tail : Bytes} {n : Nat} (h : Heads buffer header n tail) :
    buffer.drop (header.length + 1) = tail := by
  rw [h.split, List.drop_append, List.drop_of_length_le (by omega), List.nil_append,
    Nat.add_sub_cancel_left, List.drop_succ_cons, List.drop_zero]

/-- A number in twenty digits, led by zeros. -/
def padded (n : Nat) : Bytes :=
  List.replicate (20 - (Decimal.digits n).length) 48 ++ Decimal.digits n

theorem length_padded (n : Nat) (h : n < 0x10000000000000000) : (padded n).length = 20 := by
  have hshort := length_digits_le_maxHeader n h
  rw [maxHeader] at hshort
  rw [padded, List.length_append, List.length_replicate]
  omega

/-- Zeros in front do not count. -/
theorem heads_padded (n : Nat) (h : n < 0x10000000000000000) :
    Heads (padded n ++ [delimiter]) (padded n) n [] where
  split := rfl
  numeral := by
    have hdigits := ((length?_eq_some_iff _ _).mp (length?_digits n h)).1
    refine ⟨List.append_ne_nil_of_right_ne_nil _ hdigits.nonempty, fun b hb => ?_, ?_⟩
    · rcases List.mem_append.mp hb with hzero | hdigit
      · rw [List.eq_of_mem_replicate hzero]
        exact ⟨by decide, by decide⟩
      · exact hdigits.digits b hdigit
    · rw [padded, List.reverse_append, List.map_append, List.reverse_replicate, List.map_replicate]
      exact (Nat.ofDigits_append_replicate_zero _).trans hdigits.value
  short := (length_padded n h).le
  word := h

/-! ## Answers -/

/-- Opening a body gives a value or says that it is none. -/
theorem opened_cases (length : Nat) (body : Bytes) :
    (∃ v rest, opened length body = .frame v rest)
      ∨ ∃ fault rest, opened length body = .refused (.json fault) rest := by
  unfold opened
  cases Json.parse (body.take length) with
  | ok v => exact Or.inl ⟨v, _, rfl⟩
  | error fault => exact Or.inr ⟨fault, _, rfl⟩

section Answers

variable {limit : Nat} {buffer header tail : Bytes} {n : Nat} (h : Heads buffer header n tail)
  (hlimit : n ≤ limit)
include h hlimit

theorem measured_of_lt (hn : n + 21 < 0x10000000000000000) : Measured limit buffer header n := by
  have hshort := h.short
  have hsize := length_buffer_of_heads h
  have hsum : header.length + 1 + n < 0x10000000000000000 := by omega
  have hanswer := decode_of_heads limit h
  rw [if_neg (Nat.not_lt_of_le hlimit), if_neg (Nat.not_le_of_lt hsum)] at hanswer
  have hcutting : holds (header.length + 1 + n) buffer = true →
      header.length + 1 ≤ buffer.length ∧ n ≤ (buffer.drop (header.length + 1)).length := by
    intro hholds
    rw [holds_eq, decide_eq_true_iff] at hholds
    rw [drop_of_heads h]
    omega
  by_cases henough : n ≤ tail.length
  · rw [if_pos henough] at hanswer
    refine ⟨hsum, hcutting, fun _ => by rw [hanswer, drop_of_heads h], ?_, ?_⟩
    all_goals
      refine iff_of_false (fun hc => ?_) (by omega)
      rw [hanswer] at hc
      rcases opened_cases n tail with ⟨v, rest, hopened⟩ | ⟨fault, rest, hopened⟩
      all_goals
        rw [hopened] at hc
        cases hc
  · rw [if_neg henough] at hanswer
    have hmissing : buffer.length < header.length + 1 + n := by omega
    have hopening : header.length + 1 + n ≤ buffer.length →
        decode limit buffer = opened n (buffer.drop (header.length + 1)) := fun hc =>
      absurd hmissing (Nat.not_lt_of_le hc)
    rw [capacity] at hanswer
    by_cases hlong : 0x7FFFFFFFFFFFFFFF < header.length + 1 + n
    · rw [if_pos hlong] at hanswer
      refine ⟨hsum, hcutting, hopening, ?_, iff_of_true hanswer ⟨hmissing, by omega⟩⟩
      rw [hanswer]
      exact iff_of_false Found.noConfusion (by omega)
    · rw [if_neg hlong] at hanswer
      refine ⟨hsum, hcutting, hopening, iff_of_true hanswer ⟨hmissing, by omega⟩, ?_⟩
      rw [hanswer]
      exact iff_of_false Found.noConfusion (by omega)

theorem overran_of_le (hn : 0x10000000000000000 ≤ n + 21) : Overran limit buffer header n := by
  have hlength := length_of_heads h hn
  have hsum : 0x10000000000000000 ≤ header.length + 1 + n := by omega
  exact ⟨hsum, decode_of_answers (.boundless header n tail h hlimit hsum)⟩

end Answers

/-- A header of twenty digits announces as much as the limit lets through, and nothing follows. -/
theorem broken_of_padded (limit : Nat) (hlimit : limit < 0x10000000000000000)
    (hlarge : 0x8000000000000000 ≤ limit + 21) :
    ∃ cause, decode limit (padded limit ++ [delimiter])
      = .refused (.broken cause) (padded limit ++ [delimiter]) := by
  have h := heads_padded limit hlimit
  have hlength := length_padded limit hlimit
  by_cases hsum : 0x10000000000000000 ≤ (padded limit).length + 1 + limit
  · exact ⟨.sum, decode_of_answers (.boundless _ limit [] h (Nat.le_refl limit) hsum)⟩
  · refine ⟨.room, decode_of_answers (.roomless _ limit [] h (Nat.le_refl limit)
      (Nat.lt_of_not_le hsum) ?_ (by omega))⟩
    rw [List.length_nil]
    omega

theorem length_padded_delimiter_lt (limit : Nat) (hlimit : limit < 0x10000000000000000) :
    (padded limit ++ [delimiter]).length < 0x8000000000000000 := by
  rw [List.length_append, length_padded limit hlimit, List.length_singleton]
  omega

/-- A frame that the limit admits is measured as it is, and what is cut off is there, unless its
    length is within twenty-one of what a word can count. Then its measure always runs over and the
    decoder breaks down. So no measure runs over exactly if the limit leaves room for a header of
    twenty digits and the delimiter in one word, and the decoder never breaks down exactly if it
    leaves room for them in what a buffer may hold. The limit is any word, and a buffer that breaks
    the decoder down is one that a header fills. -/
theorem frames_measured (limit : Nat) (hlimit : limit < 0x10000000000000000) :
    (∀ buffer header n tail, Heads buffer header n tail → n ≤ limit →
        (n + 21 < 0x10000000000000000 → Measured limit buffer header n)
          ∧ (0x10000000000000000 ≤ n + 21 → Overran limit buffer header n))
      ∧ (limit + 21 < 0x10000000000000000
        ↔ ∀ buffer, buffer.length < 0x8000000000000000 → ∀ rest,
          decode limit buffer ≠ .refused (.broken .sum) rest)
      ∧ (limit + 21 < 0x8000000000000000
        ↔ ∀ buffer, buffer.length < 0x8000000000000000 → ∀ cause rest,
          decode limit buffer ≠ .refused (.broken cause) rest) := by
  refine ⟨fun buffer header n tail h hn => ⟨measured_of_lt h hn, overran_of_le h hn⟩,
    ⟨fun hfitting buffer _ rest hc => ?_, fun hsafe => ?_⟩,
    ⟨fun hfitting buffer _ cause rest hc => ?_, fun hsafe => ?_⟩⟩
  · cases (decode_eq_iff buffer _).mp hc with
    | boundless header n tail h hn hsum =>
        have hshort := h.short
        omega
  · -- The largest length that the limit admits is the one to try.
    by_contra hlarge
    exact hsafe _ (length_padded_delimiter_lt limit hlimit) _
      (overran_of_le (heads_padded limit hlimit) (Nat.le_refl limit) (by omega)).breaking
  · cases (decode_eq_iff buffer _).mp hc with
    | boundless header n tail h hn hsum =>
        have hshort := h.short
        omega
    | roomless header n tail h hn hsum hmissing hlong =>
        have hshort := h.short
        omega
  · by_contra hlarge
    rcases broken_of_padded limit hlimit (by omega) with ⟨cause, hbroken⟩
    exact hsafe _ (length_padded_delimiter_lt limit hlimit) _ _ hbroken

/-- The largest word as the limit. Of two headers that announce twenty-two and twenty-one less than
    a word can count, the one is measured, although no buffer may hold its frame, and the measure of
    the other runs over. -/
theorem frames_measured_at_edge :
    0xFFFFFFFFFFFFFFFF < 0x10000000000000000
      ∧ Measured 0xFFFFFFFFFFFFFFFF (utf8 "18446744073709551594#") (utf8 "18446744073709551594")
        18446744073709551594
      ∧ Overran 0xFFFFFFFFFFFFFFFF (utf8 "18446744073709551595#") (utf8 "18446744073709551595")
        18446744073709551595
      ∧ (¬ ∀ buffer, buffer.length < 0x8000000000000000 → ∀ rest,
        decode 0xFFFFFFFFFFFFFFFF buffer ≠ .refused (.broken .sum) rest)
      ∧ ¬ ∀ buffer, buffer.length < 0x8000000000000000 → ∀ cause rest,
        decode 0xFFFFFFFFFFFFFFFF buffer ≠ .refused (.broken cause) rest := by
  have hlimit : 0xFFFFFFFFFFFFFFFF < 0x10000000000000000 := by omega
  have hbelow : Heads (utf8 "18446744073709551594#") (utf8 "18446744073709551594")
      18446744073709551594 [] := heads_of_length? (utf8 "18446744073709551594") rfl (by decide)
  have hedge : Heads (utf8 "18446744073709551595#") (utf8 "18446744073709551595")
      18446744073709551595 [] := heads_of_length? (utf8 "18446744073709551595") rfl (by decide)
  rcases frames_measured 0xFFFFFFFFFFFFFFFF hlimit with ⟨hframes, hsum, hany⟩
  exact ⟨hlimit, (hframes _ _ _ [] hbelow (by omega)).1 (by omega),
    (hframes _ _ _ [] hedge (by omega)).2 (by omega), fun hall => absurd (hsum.mpr hall) (by omega),
    fun hall => absurd (hany.mpr hall) (by omega)⟩

/-- The largest word as the limit, and a header that announces as much. It is not too large, the sum
    is no word, and the decoder does not wait for a single octet. -/
theorem largest_length_runs_over :
    Heads (utf8 "18446744073709551615#") (utf8 "18446744073709551615") 0xFFFFFFFFFFFFFFFF []
      ∧ (utf8 "18446744073709551615#").length < 0x8000000000000000
      ∧ ¬ (utf8 "18446744073709551615").length + 1 + 0xFFFFFFFFFFFFFFFF < 0x10000000000000000
      ∧ decode 0xFFFFFFFFFFFFFFFF (utf8 "18446744073709551615#")
        = .refused (.broken .sum) (utf8 "18446744073709551615#") := by
  have h : Heads (utf8 "18446744073709551615#") (utf8 "18446744073709551615")
      0xFFFFFFFFFFFFFFFF [] := heads_of_length? (utf8 "18446744073709551615") rfl (by decide)
  have hoverran := overran_of_le h (Nat.le_refl _) (by omega)
  exact ⟨h, by decide, Nat.not_lt_of_le hoverran.sum, hoverran.breaking⟩

end Frame

end Gateway
