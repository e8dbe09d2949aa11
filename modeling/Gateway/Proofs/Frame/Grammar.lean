import Mathlib.Data.List.Induction
import Mathlib.Data.Nat.Digits.Defs
import Gateway.Proofs.Decimal.Canonical
import Gateway.Proofs.Frame.Decoding

/-!
# The Grammar of Frames

What the decoder accepts, said without the decoder. A frame is a header of one to twenty digits, a
delimiter, and as many octets as the digits say. The digits are read by place value, so zeros may
lead, and their number has to fit one word. `Heads` is a buffer that opens in this way, and
`Malformed` one that never will, whatever is added to it.

Both are told apart from what may still become one or the other, and that leaves six shapes of a
buffer. `Answers` gives the answer for each of them. The decoder gives one of these answers
(`answers_decode`), and no buffer has two shapes with different answers (`decode_of_answers`), so
the relation is the decoder, read as a grammar. What is found at the front of a buffer can then be
read off in either direction.

Asking again and again comes to an end, because a frame is never shorter than a digit and the
delimiter. `Drains` says what comes of it without a count of rounds, and the count that `drain` goes
by never cuts it short.

## Main definitions

* `Numeral`: A row of digits that stands for a number.
* `Heads`, `Malformed`: A buffer that opens with a header, and one that never will.
* `Answers`: What is found at the front of a buffer, shape by shape.
* `Drains`: What comes of asking until nothing or an error is found.

## Theorems

* `length?_eq_some_iff`, `length?_eq_none_iff`: Which rows of octets are a length.
* `decode_eq_iff`: The decoder gives the answers of the grammar, and no others.
* `drains_iff`: Repeated decoding ends, and in one way only.
* `decode_grammar`: The grammar, answer by answer.
-/

namespace Gateway

namespace Frame

/-! ## Headers -/

/-- An octet from `0` to `9`. -/
def IsNumeric (b : UInt8) : Prop :=
  48 ≤ b.toNat ∧ b.toNat ≤ 57

/-- A row of digits, at least one, and the number that it stands for by place value. -/
structure Numeral (ds : Bytes) (n : Nat) : Prop where
  /-- There is a digit. -/
  nonempty : ds ≠ []
  /-- There is nothing but digits. -/
  digits : ∀ b ∈ ds, IsNumeric b
  /-- The last digit counts ones, the one before it tens, and so on. -/
  value : Nat.ofDigits 10 (ds.reverse.map fun b => b.toNat - 48) = n

/-- A row of octets that is no length: it is empty, not all digits, or does not fit one word. -/
def Misshapen (header : Bytes) : Prop :=
  header = [] ∨ (∃ b ∈ header, ¬ IsNumeric b)
    ∨ ∃ n, Numeral header n ∧ 0x10000000000000000 ≤ n

/-- A buffer opens with one to twenty digits and the delimiter, and then comes the tail. The digits
    stand for a number that fits one word. -/
structure Heads (buffer header : Bytes) (n : Nat) (tail : Bytes) : Prop where
  /-- Where the delimiter is. -/
  split : buffer = header ++ delimiter :: tail
  /-- The digits stand for the number. -/
  numeral : Numeral header n
  /-- There are at most twenty digits. -/
  short : header.length ≤ 20
  /-- The number fits one word. -/
  word : n < 0x10000000000000000

/-- A buffer whose beginning is no header and will never be one. -/
inductive Malformed (buffer : Bytes) : Prop
  /-- What stands before the first delimiter is no length. -/
  | misshapen (header tail : Bytes) (hsplit : buffer = header ++ delimiter :: tail)
      (hfirst : delimiter ∉ header) (hshort : header.length ≤ 20) (hheader : Misshapen header)
  /-- There is no delimiter among the first twenty-one octets, and they are all there. -/
  | endless (habsent : delimiter ∉ buffer.take 21) (hlong : 21 ≤ buffer.length)

/-- Digits are read by place value. -/
theorem value_eq_ofDigits (ds : Bytes) :
    Decimal.value ds = Nat.ofDigits 10 (ds.reverse.map fun b => b.toNat - 48) := by
  induction ds using List.reverseRecOn with
  | nil => rfl
  | append_singleton ds b ih =>
      rw [Decimal.value_append, Decimal.push, Decimal.digitValue, ih, List.reverse_append,
        List.reverse_singleton, List.singleton_append, List.map_cons, Nat.ofDigits_cons]
      omega

theorem isDigit_iff (b : UInt8) : Decimal.isDigit b = true ↔ IsNumeric b := by
  simp only [Decimal.isDigit, IsNumeric, Bool.and_eq_true, decide_eq_true_eq]

theorem delimiter_not_mem_of_numeral {header : Bytes} {n : Nat} (h : Numeral header n) :
    delimiter ∉ header := fun hmem =>
  absurd (h.digits delimiter hmem).1 (by decide)

/-- A buffer opens with one header at most. -/
theorem Heads.unique {buffer header other tail rest : Bytes} {m n : Nat}
    (h : Heads buffer header n tail) (h' : Heads buffer other m rest) :
    header = other ∧ n = m ∧ tail = rest := by
  have hheader := header?_of_split header tail (delimiter_not_mem_of_numeral h.numeral) h.short
  have hother := header?_of_split other rest (delimiter_not_mem_of_numeral h'.numeral) h'.short
  rw [← h.split] at hheader
  rw [← h'.split, hheader, Option.some.injEq] at hother
  subst hother
  refine ⟨rfl, h.numeral.value.symm.trans h'.numeral.value, ?_⟩
  have hsplit := h.split.symm.trans h'.split
  exact (List.cons.inj (List.append_cancel_left hsplit)).2

theorem numeral_or_misshapen (header : Bytes) :
    Numeral header (Decimal.value header) ∨ header = [] ∨ ∃ b ∈ header, ¬ IsNumeric b := by
  by_cases hnil : header = []
  · exact Or.inr (Or.inl hnil)
  · by_cases hdigits : ∀ b ∈ header, IsNumeric b
    · exact Or.inl ⟨hnil, hdigits, (value_eq_ofDigits header).symm⟩
    · push Not at hdigits
      exact Or.inr (Or.inr hdigits)

theorem length?_of_numeral {header : Bytes} {n : Nat} (h : Numeral header n) :
    length? header = if n < 0x10000000000000000 then some n else none := by
  have hempty : header.isEmpty = false := List.isEmpty_eq_false_iff.mpr h.nonempty
  have hall : header.all Decimal.isDigit = true :=
    List.all_eq_true.mpr fun b hb => (isDigit_iff b).mpr (h.digits b hb)
  have hvalue : Decimal.value header = n := (value_eq_ofDigits header).trans h.value
  rw [length?, hempty, hall, hvalue]
  rfl

theorem length?_of_not_digits {header : Bytes}
    (h : header = [] ∨ ∃ b ∈ header, ¬ IsNumeric b) : length? header = none := by
  refine if_pos ?_
  rw [Bool.or_eq_true]
  rcases h with rfl | ⟨b, hmem, hb⟩
  · exact Or.inl rfl
  · right
    rw [Bool.not_eq_true', List.all_eq_false]
    exact ⟨b, hmem, fun hdigit => hb ((isDigit_iff b).mp hdigit)⟩

theorem length?_eq_some_iff (header : Bytes) (n : Nat) :
    length? header = some n ↔ Numeral header n ∧ n < 0x10000000000000000 := by
  constructor
  · intro h
    rcases numeral_or_misshapen header with hnumeral | hwrong
    · rw [length?_of_numeral hnumeral] at h
      by_cases hword : Decimal.value header < 0x10000000000000000
      · rw [if_pos hword, Option.some.injEq] at h
        exact h ▸ ⟨hnumeral, hword⟩
      · rw [if_neg hword] at h
        exact absurd h (Option.some_ne_none n).symm
    · rw [length?_of_not_digits hwrong] at h
      exact absurd h (Option.some_ne_none n).symm
  · rintro ⟨hnumeral, hword⟩
    rw [length?_of_numeral hnumeral, if_pos hword]

theorem length?_eq_none_iff (header : Bytes) : length? header = none ↔ Misshapen header := by
  constructor
  · intro h
    rcases numeral_or_misshapen header with hnumeral | hnil | hwrong
    · refine Or.inr (Or.inr ⟨_, hnumeral, Nat.le_of_not_lt fun hword => ?_⟩)
      rw [(length?_eq_some_iff header _).mpr ⟨hnumeral, hword⟩] at h
      exact absurd h (Option.some_ne_none _)
    · exact Or.inl hnil
    · exact Or.inr (Or.inl hwrong)
  · rintro (hnil | hwrong | ⟨n, hnumeral, hlarge⟩)
    · exact length?_of_not_digits (Or.inl hnil)
    · exact length?_of_not_digits (Or.inr hwrong)
    · rw [length?_of_numeral hnumeral, if_neg (Nat.not_lt_of_le hlarge)]

/-- A header with nothing behind it. -/
theorem heads_of_length? (header : Bytes) {n : Nat} (h : length? header = some n)
    (hshort : header.length ≤ 20) : Heads (header ++ [delimiter]) header n [] where
  split := rfl
  numeral := ((length?_eq_some_iff header n).mp h).1
  short := hshort
  word := ((length?_eq_some_iff header n).mp h).2

/-! ## One Answer -/

/-- What is found at the front of a buffer under a limit, shape by shape. -/
inductive Answers (limit : Nat) (buffer : Bytes) : Found → Prop
  /-- The body is there in full and is JSON. -/
  | frame (header body rest : Bytes) (v : Json) (h : Heads buffer header body.length (body ++ rest))
      (hlimit : body.length ≤ limit) (hsum : header.length + 1 + body.length < 0x10000000000000000)
      (hparse : Json.parse body = .ok v) : Answers limit buffer (.frame v rest)
  /-- The body is there in full and is not JSON. -/
  | spoilt (header body rest : Bytes) (fault : Fault)
      (h : Heads buffer header body.length (body ++ rest)) (hlimit : body.length ≤ limit)
      (hsum : header.length + 1 + body.length < 0x10000000000000000)
      (hparse : Json.parse body = .error fault) : Answers limit buffer (.refused (.json fault) rest)
  /-- The header announces more than the limit. -/
  | tooLarge (header : Bytes) (n : Nat) (tail : Bytes) (h : Heads buffer header n tail)
      (hlarge : limit < n) : Answers limit buffer (.refused (.tooLarge n limit) buffer)
  /-- The header announces a frame whose extent is no word. -/
  | boundless (header : Bytes) (n : Nat) (tail : Bytes) (h : Heads buffer header n tail)
      (hlimit : n ≤ limit) (hsum : 0x10000000000000000 ≤ header.length + 1 + n) :
      Answers limit buffer (.refused (.broken .sum) buffer)
  /-- The body is not there in full, and no buffer may hold the frame. -/
  | roomless (header : Bytes) (n : Nat) (tail : Bytes) (h : Heads buffer header n tail)
      (hlimit : n ≤ limit) (hsum : header.length + 1 + n < 0x10000000000000000)
      (hshort : tail.length < n) (hlong : 0x8000000000000000 ≤ header.length + 1 + n) :
      Answers limit buffer (.refused (.broken .room) buffer)
  /-- There will be no header. -/
  | malformed (h : Malformed buffer) : Answers limit buffer (.refused .invalidHeader buffer)
  /-- The header may still be on its way. -/
  | unclosed (habsent : delimiter ∉ buffer.take 21) (hshort : buffer.length < 21) :
      Answers limit buffer .nothing
  /-- The body is still on its way. -/
  | incomplete (header : Bytes) (n : Nat) (tail : Bytes) (h : Heads buffer header n tail)
      (hlimit : n ≤ limit) (hshort : tail.length < n)
      (hroom : header.length + 1 + n < 0x8000000000000000) : Answers limit buffer .nothing

section Answer

theorem decode_of_heads (limit : Nat) {buffer header tail : Bytes} {n : Nat}
    (h : Heads buffer header n tail) :
    decode limit buffer
      = if limit < n then .refused (.tooLarge n limit) buffer
        else if 0x10000000000000000 ≤ header.length + 1 + n then .refused (.broken .sum) buffer
        else if n ≤ tail.length then opened n tail
        else if capacity < header.length + 1 + n then .refused (.broken .room) buffer
        else .nothing := by
  have hlength : length? header = some n :=
    (length?_eq_some_iff header n).mpr ⟨h.numeral, h.word⟩
  rw [h.split, decode_of_split limit header tail (delimiter_not_mem_of_numeral h.numeral) h.short]
  simp only [hlength]

variable {limit : Nat}

theorem decode_of_malformed {buffer : Bytes} (h : Malformed buffer) :
    decode limit buffer = .refused .invalidHeader buffer := by
  cases h with
  | misshapen header tail hsplit hfirst hshort hheader =>
      rw [hsplit, decode_of_split limit header tail hfirst hshort]
      simp only [(length?_eq_none_iff header).mpr hheader]
  | endless habsent hlong =>
      rw [decode_of_absent limit buffer habsent, if_pos (show maxHeader < buffer.length from hlong)]

/-- A body that is there in full is all there is in front of the rest. -/
theorem opened_body (body rest : Bytes) :
    opened body.length (body ++ rest)
      = match Json.parse body with
        | .ok v => .frame v rest
        | .error fault => .refused (.json fault) rest := by
  unfold opened
  cases hparse : Json.parse body with
  | ok v => simp only [List.take_left, List.drop_left, hparse]
  | error fault => simp only [List.take_left, List.drop_left, hparse]

theorem decode_of_body {buffer header body rest : Bytes}
    (h : Heads buffer header body.length (body ++ rest)) (hbody : body.length ≤ limit)
    (hsum : header.length + 1 + body.length < 0x10000000000000000) :
    decode limit buffer
      = match Json.parse body with
        | .ok v => .frame v rest
        | .error fault => .refused (.json fault) rest := by
  rw [decode_of_heads limit h, if_neg (Nat.not_lt_of_le hbody), if_neg (Nat.not_le_of_lt hsum),
    if_pos (List.prefix_append body rest).length_le, opened_body]

/-- No buffer has two shapes with different answers. -/
theorem decode_of_answers {buffer : Bytes} {found : Found} (h : Answers limit buffer found) :
    decode limit buffer = found := by
  cases h with
  | frame header body rest v h hbody hsum hparse => rw [decode_of_body h hbody hsum, hparse]
  | spoilt header body rest fault h hbody hsum hparse => rw [decode_of_body h hbody hsum, hparse]
  | tooLarge header n tail h hlarge => rw [decode_of_heads limit h, if_pos hlarge]
  | boundless header n tail h hannounced hsum =>
      rw [decode_of_heads limit h, if_neg (Nat.not_lt_of_le hannounced), if_pos hsum]
  | roomless header n tail h hannounced hsum hshort hlong =>
      rw [decode_of_heads limit h, if_neg (Nat.not_lt_of_le hannounced),
        if_neg (Nat.not_le_of_lt hsum), if_neg (Nat.not_le_of_lt hshort),
        if_pos (show capacity < header.length + 1 + n from hlong)]
  | malformed h => exact decode_of_malformed h
  | unclosed habsent hshort =>
      have hwaits : ¬ maxHeader < buffer.length := Nat.not_lt.mpr (Nat.le_of_lt_succ hshort)
      rw [decode_of_absent limit buffer habsent, if_neg hwaits]
  | incomplete header n tail h hannounced hshort hroom =>
      have hsum : ¬ 0x10000000000000000 ≤ header.length + 1 + n := by omega
      have hcapacity : ¬ capacity < header.length + 1 + n :=
        Nat.not_lt.mpr (Nat.le_of_lt_succ hroom)
      rw [decode_of_heads limit h, if_neg (Nat.not_lt_of_le hannounced), if_neg hsum,
        if_neg (Nat.not_le_of_lt hshort), if_neg hcapacity]

theorem answers_of_heads {buffer header tail : Bytes} {n : Nat} (h : Heads buffer header n tail) :
    ∃ found, Answers limit buffer found := by
  by_cases hlarge : limit < n
  · exact ⟨_, .tooLarge header n tail h hlarge⟩
  have hannounced := Nat.le_of_not_lt hlarge
  by_cases hsum : 0x10000000000000000 ≤ header.length + 1 + n
  · exact ⟨_, .boundless header n tail h hannounced hsum⟩
  by_cases hshort : tail.length < n
  · by_cases hlong : 0x8000000000000000 ≤ header.length + 1 + n
    · exact ⟨_, .roomless header n tail h hannounced (Nat.lt_of_not_le hsum) hshort hlong⟩
    · exact ⟨_, .incomplete header n tail h hannounced hshort (Nat.lt_of_not_le hlong)⟩
  · -- The body is as much of the tail as was announced.
    have hbody : (tail.take n).length = n := by
      rw [List.length_take]
      omega
    have hheads : Heads buffer header (tail.take n).length (tail.take n ++ tail.drop n) := by
      rw [hbody, List.take_append_drop]
      exact h
    have hfits : (tail.take n).length ≤ limit := by omega
    have hword : header.length + 1 + (tail.take n).length < 0x10000000000000000 := by omega
    cases hparse : Json.parse (tail.take n) with
    | ok v => exact ⟨_, .frame header _ _ v hheads hfits hword hparse⟩
    | error fault => exact ⟨_, .spoilt header _ _ fault hheads hfits hword hparse⟩

/-- Every buffer has one of the shapes. -/
theorem exists_answers (buffer : Bytes) : ∃ found, Answers limit buffer found := by
  rcases split_or_absent buffer with ⟨header, tail, hsplit, hfirst, hshort⟩ | habsent
  · cases hlength : length? header with
    | none =>
        have hheader := (length?_eq_none_iff header).mp hlength
        exact ⟨_, .malformed (.misshapen header tail hsplit hfirst hshort hheader)⟩
    | some n =>
        rcases (length?_eq_some_iff header n).mp hlength with ⟨hnumeral, hword⟩
        exact answers_of_heads ⟨hsplit, hnumeral, hshort, hword⟩
  · by_cases hlong : 21 ≤ buffer.length
    · exact ⟨_, .malformed (.endless habsent hlong)⟩
    · exact ⟨_, .unclosed habsent (Nat.lt_of_not_le hlong)⟩

theorem answers_decode (buffer : Bytes) : Answers limit buffer (decode limit buffer) := by
  obtain ⟨found, h⟩ : ∃ found, Answers limit buffer found := exists_answers buffer
  rw [decode_of_answers h]
  exact h

/-- The decoder gives the answers of the grammar, and no others, under whatever limit. -/
theorem decode_eq_iff (buffer : Bytes) (found : Found) :
    decode limit buffer = found ↔ Answers limit buffer found :=
  ⟨fun h => h ▸ answers_decode buffer, decode_of_answers⟩

/-- Nothing is found where a header, if there is one, is within the limit and waits for a body that
    a buffer may hold with it, and where there may still come one. -/
theorem decode_eq_nothing_iff (buffer : Bytes) :
    decode limit buffer = .nothing
      ↔ ¬ Malformed buffer
        ∧ ∀ header n tail, Heads buffer header n tail → n ≤ limit ∧ tail.length < n
          ∧ header.length + 1 + n < 0x8000000000000000 := by
  constructor
  · intro h
    refine ⟨fun hmalformed => ?_, fun header n tail hheads => ?_⟩
    · rw [decode_of_malformed hmalformed] at h
      exact Found.noConfusion h
    · rw [decode_of_heads limit hheads] at h
      by_cases hlarge : limit < n
      · rw [if_pos hlarge] at h
        exact Found.noConfusion h
      rw [if_neg hlarge] at h
      by_cases hsum : 0x10000000000000000 ≤ header.length + 1 + n
      · rw [if_pos hsum] at h
        exact Found.noConfusion h
      rw [if_neg hsum] at h
      by_cases henough : n ≤ tail.length
      · rw [if_pos henough, opened] at h
        cases hparse : Json.parse (tail.take n) with
        | ok v | error fault =>
            rw [hparse] at h
            exact Found.noConfusion h
      rw [if_neg henough] at h
      by_cases hlong : capacity < header.length + 1 + n
      · rw [if_pos hlong] at h
        exact Found.noConfusion h
      rw [capacity] at hlong
      exact ⟨Nat.le_of_not_lt hlarge, Nat.lt_of_not_le henough, by omega⟩
  · rintro ⟨hmalformed, hheads⟩
    cases hfound : decode limit buffer with
    | nothing => rfl
    | frame v rest =>
        cases (decode_eq_iff buffer _).mp hfound with
        | frame header body rest v h hbody hsum hparse =>
            have hshort := (hheads header _ _ h).2.1
            rw [List.length_append] at hshort
            omega
    | refused e rest =>
        cases (decode_eq_iff buffer _).mp hfound with
        | spoilt header body rest fault h hbody hsum hparse =>
            have hshort := (hheads header _ _ h).2.1
            rw [List.length_append] at hshort
            omega
        | tooLarge header n tail h hlarge =>
            exact absurd (hheads header n _ h).1 (Nat.not_le_of_lt hlarge)
        | boundless header n tail h hannounced hsum =>
            have hroom := (hheads header n _ h).2.2
            omega
        | roomless header n tail h hannounced hsum hshort hlong =>
            exact absurd (hheads header n _ h).2.2 (Nat.not_lt_of_le hlong)
        | malformed h => exact absurd h hmalformed

end Answer

/-! ## Repeated Decoding -/

/-- What comes of asking until nothing or an error is found. -/
inductive Drains (limit : Nat) : Bytes → Drained → Prop
  /-- There is nothing more, and the buffer stays. -/
  | nothing (buffer : Bytes) (h : decode limit buffer = .nothing) :
      Drains limit buffer ⟨[], none, buffer⟩
  /-- There is an error. -/
  | refused (buffer rest : Bytes) (e : FrameError) (h : decode limit buffer = .refused e rest) :
      Drains limit buffer ⟨[], some e, rest⟩
  /-- There is a frame, and what is left is asked for the next. -/
  | frame (buffer rest : Bytes) (v : Json) (found : Drained)
      (h : decode limit buffer = .frame v rest) (hrest : Drains limit rest found) :
      Drains limit buffer { found with frames := v :: found.frames }

section Repeated

variable {limit : Nat}

theorem Drains.eq_drain {buffer : Bytes} {found : Drained} (h : Drains limit buffer found) :
    found = drain limit buffer := by
  induction h with
  | nothing buffer h => exact (drain_of_nothing buffer h).symm
  | refused buffer rest e h => exact (drain_of_refused buffer rest e h).symm
  | frame buffer rest v found h _ ih => rw [drain_of_frame buffer rest v h, ← ih]

/-- The count of rounds never cuts the decoding short. -/
theorem drains_drain (buffer : Bytes) : Drains limit buffer (drain limit buffer) := by
  induction hn : buffer.length using Nat.strong_induction_on generalizing buffer with
  | _ n ih =>
      cases hfound : decode limit buffer with
      | nothing =>
          rw [drain_of_nothing buffer hfound]
          exact .nothing buffer hfound
      | refused e rest =>
          rw [drain_of_refused buffer rest e hfound]
          exact .refused buffer rest e hfound
      | frame v rest =>
          -- What is left is shorter, so asking it comes to an end.
          have hless := length_lt_of_frame limit buffer rest v hfound
          rw [drain_of_frame buffer rest v hfound]
          exact .frame buffer rest v _ hfound (ih rest.length (by omega) rest rfl)

theorem drains_iff (buffer : Bytes) (found : Drained) :
    Drains limit buffer found ↔ drain limit buffer = found :=
  ⟨fun h => (h.eq_drain).symm, fun h => h ▸ drains_drain buffer⟩

end Repeated

/-- A value is found exactly where a header is followed by as many octets as it says, within the
    limit, that are JSON, and an error in the body where they are not. A length over the limit is
    refused on sight of its header, and so is what will never be a header; both leave the buffer as
    it is. There is no other answer but to wait, and that is given only while the frame that the
    header announces is one that a buffer may hold. For a longer one the decoder breaks down, and
    leaves the buffer as well. Asking again and again comes to one end, because every frame takes
    two octets at least. -/
theorem decode_grammar (limit : Nat) (buffer : Bytes) (hlimit : limit + 21 < 0x10000000000000000) :
    (∀ v rest, decode limit buffer = .frame v rest
        ↔ ∃ header body, Heads buffer header body.length (body ++ rest) ∧ body.length ≤ limit
          ∧ Json.parse body = .ok v)
      ∧ (∀ fault rest, decode limit buffer = .refused (.json fault) rest
        ↔ ∃ header body, Heads buffer header body.length (body ++ rest) ∧ body.length ≤ limit
          ∧ Json.parse body = .error fault)
      ∧ (∀ n m rest, decode limit buffer = .refused (.tooLarge n m) rest
        ↔ (∃ header tail, Heads buffer header n tail) ∧ limit < n ∧ m = limit ∧ rest = buffer)
      ∧ (∀ rest, decode limit buffer = .refused .invalidHeader rest
        ↔ Malformed buffer ∧ rest = buffer)
      ∧ (decode limit buffer = .nothing
        ↔ ¬ Malformed buffer
          ∧ ∀ header n tail, Heads buffer header n tail → n ≤ limit ∧ tail.length < n
            ∧ header.length + 1 + n < 0x8000000000000000)
      ∧ (∀ cause rest, decode limit buffer = .refused (.broken cause) rest
        ↔ (∃ header n tail, Heads buffer header n tail ∧ n ≤ limit ∧ tail.length < n
            ∧ 0x8000000000000000 ≤ header.length + 1 + n) ∧ cause = .room ∧ rest = buffer)
      ∧ (∀ kind text rest, decode limit buffer ≠ .refused (.io kind text) rest)
      ∧ (∃! found, Drains limit buffer found)
      ∧ Drains limit buffer (drain limit buffer)
      ∧ ∀ v rest, decode limit buffer = .frame v rest → rest.length + 2 ≤ buffer.length := by
  -- Under the limit there is room for a header and its delimiter in one word.
  have hword : ∀ {header tail : Bytes} {n : Nat}, Heads buffer header n tail → n ≤ limit →
      header.length + 1 + n < 0x10000000000000000 := fun h hn => by
    have hshort := h.short
    omega
  refine ⟨fun v rest => ⟨fun h => ?_, ?_⟩, fun fault rest => ⟨fun h => ?_, ?_⟩,
    fun n m rest => ⟨fun h => ?_, ?_⟩, fun rest => ⟨fun h => ?_, ?_⟩,
    decode_eq_nothing_iff buffer, fun cause rest => ⟨fun h => ?_, ?_⟩, fun kind text rest h => ?_,
    ⟨drain limit buffer, drains_drain buffer, fun found h => h.eq_drain⟩,
    drains_drain buffer, fun v rest h => length_lt_of_frame limit buffer rest v h⟩
  · cases (decode_eq_iff buffer _).mp h with
    | frame header body _ _ hheads hbody hsum hparse => exact ⟨header, body, hheads, hbody, hparse⟩
  · rintro ⟨header, body, hheads, hbody, hparse⟩
    exact decode_of_answers (.frame header body rest v hheads hbody (hword hheads hbody) hparse)
  · cases (decode_eq_iff buffer _).mp h with
    | spoilt header body _ _ hheads hbody hsum hparse =>
        exact ⟨header, body, hheads, hbody, hparse⟩
  · rintro ⟨header, body, hheads, hbody, hparse⟩
    exact decode_of_answers
      (.spoilt header body rest fault hheads hbody (hword hheads hbody) hparse)
  · cases (decode_eq_iff buffer _).mp h with
    | tooLarge header _ tail hheads hlarge => exact ⟨⟨header, tail, hheads⟩, hlarge, rfl, rfl⟩
  · rintro ⟨⟨header, tail, hheads⟩, hlarge, rfl, rfl⟩
    exact decode_of_answers (.tooLarge header n tail hheads hlarge)
  · cases (decode_eq_iff buffer _).mp h with
    | malformed hmalformed => exact ⟨hmalformed, rfl⟩
  · rintro ⟨hmalformed, rfl⟩
    exact decode_of_malformed hmalformed
  · cases (decode_eq_iff buffer _).mp h with
    | boundless header n tail hheads hannounced hsum =>
        exact absurd (hword hheads hannounced) (Nat.not_lt_of_le hsum)
    | roomless header n tail hheads hannounced _ hshort hlong =>
        exact ⟨⟨header, n, tail, hheads, hannounced, hshort, hlong⟩, rfl, rfl⟩
  · rintro ⟨⟨header, n, tail, hheads, hannounced, hshort, hlong⟩, rfl, rfl⟩
    exact decode_of_answers
      (.roomless header n tail hheads hannounced (hword hheads hannounced) hshort hlong)
  · cases (decode_eq_iff buffer _).mp h

/-- A header with a leading zero, its body, and the beginning of another header. -/
theorem decode_grammar_leading_zero : 5 + 21 < 0x10000000000000000
    ∧ Heads (utf8 "02#[]7") (utf8 "02") (utf8 "[]").length (utf8 "[]" ++ utf8 "7")
    ∧ decode 5 (utf8 "02#[]7") = .frame (.array []) (utf8 "7")
    ∧ Drains 5 (utf8 "02#[]7") ⟨[.array []], none, utf8 "7"⟩ := by
  have hfitting : 5 + 21 < 0x10000000000000000 := by omega
  have hall : (utf8 "02").all Decimal.isDigit = true := by decide
  have hdigits : ∀ b ∈ utf8 "02", IsNumeric b := fun b hb =>
    (isDigit_iff b).mp (List.all_eq_true.mp hall b hb)
  have hheads : Heads (utf8 "02#[]7") (utf8 "02") (utf8 "[]").length (utf8 "[]" ++ utf8 "7") :=
    ⟨rfl, ⟨by decide, hdigits, rfl⟩, by decide, by decide⟩
  rcases decode_grammar 5 (utf8 "02#[]7") hfitting with
    ⟨hframe, _, _, _, _, _, _, _, hdrains, _⟩
  exact ⟨hfitting, hheads, (hframe _ _).mpr ⟨_, _, hheads, by decide, rfl⟩, hdrains⟩

/-- A limit that leaves room for a header in one word, and a header that announces as much. It is
    within the limit and waits for its body, which is longer than a buffer may be, and the decoder
    breaks down. -/
theorem awaited_body_breaks_down : 0x8000000000000000 + 21 < 0x10000000000000000
    ∧ ¬ Malformed (utf8 "9223372036854775808#")
    ∧ (∀ header n tail, Heads (utf8 "9223372036854775808#") header n tail →
      n ≤ 0x8000000000000000 ∧ tail.length < n)
    ∧ decode 0x8000000000000000 (utf8 "9223372036854775808#")
      = .refused (.broken .room) (utf8 "9223372036854775808#") := by
  have h : Heads (utf8 "9223372036854775808#") (utf8 "9223372036854775808") 0x8000000000000000 [] :=
    heads_of_length? (utf8 "9223372036854775808") rfl (by decide)
  have hfound : decode 0x8000000000000000 (utf8 "9223372036854775808#")
      = .refused (.broken .room) (utf8 "9223372036854775808#") :=
    decode_of_answers (.roomless _ _ [] h (Nat.le_refl _) (by decide) (by decide) (by decide))
  refine ⟨by decide, fun hmalformed => ?_, fun header n tail hheads => ?_, hfound⟩
  · rw [decode_of_malformed hmalformed] at hfound
    cases hfound
  · rcases h.unique hheads with ⟨_, rfl, rfl⟩
    exact ⟨Nat.le_refl _, by decide⟩

end Frame

end Gateway
