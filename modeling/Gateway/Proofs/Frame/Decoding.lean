import Mathlib.Data.List.TakeWhile
import Gateway.Frame

/-!
# What Is at the Front of a Buffer

The decoder is asked about whatever happens to be buffered. Its answers are described here once,
by the shape of the buffer: either a delimiter closes a header among the first octets, or there is
none where it would have to be. Everything else about decoding is derived from these two cases.

`decode_append` is the reason why it does not matter when octets arrive: an answer, once given, is
not changed by what comes after it. It rests on the two cases too. A header that is closed stays
closed, and one that is too long stays too long. A breakdown for want of room is an answer too, and
it stays because the octets that would complete such a frame are more than a buffer may hold. So
either the limit is so low that no such frame is let through, or there are not that many octets,
which is `Roomy`.

Repeated decoding is described without the count of rounds that bounds it. A frame takes at least
two octets, so the count never runs out, and `drain` obeys the equations that a reader would write
down for it (`drain_of_nothing`, `drain_of_frame`, `drain_of_refused`).

## Main definitions

* `Roomy`: Frames are not longer than a buffer may hold, or rows of octets are not.
* `Found.extend`: The same answer with more octets left over.

## Theorems

* `decode_of_absent`, `decode_of_split`: The answer for each shape of the buffer.
* `decode_append`: An answer is not changed by octets that come later.
* `length_lt_of_frame`: A frame leaves less than there was.
* `drain_of_nothing`, `drain_of_frame`, `drain_of_refused`: Repeated decoding, round by round.
-/

namespace Gateway

namespace Frame

/-- No frame that the limit lets through has more octets than a buffer may hold, or there are no
    more octets than that. -/
def Roomy (limit octets : Nat) : Prop :=
  limit + 21 ≤ capacity ∨ octets ≤ capacity

theorem Roomy.mono {limit m n : Nat} (h : Roomy limit n) (hle : m ≤ n) : Roomy limit m :=
  h.imp_right hle.trans

/-! ## Headers -/

theorem header?_of_split (header rest : Bytes) (hnot : delimiter ∉ header)
    (hlength : header.length ≤ maxHeader) :
    header? (header ++ delimiter :: rest) = some header := by
  have htake : (header ++ delimiter :: rest).take (maxHeader + 1)
      = header ++ delimiter :: rest.take (maxHeader - header.length) := by
    rw [List.take_append, List.take_of_length_le (by omega),
      show maxHeader + 1 - header.length = maxHeader - header.length + 1 by omega,
      List.take_succ_cons]
  -- Within the octets that are looked at, the delimiter is the first to stop at.
  have hwhile : (header ++ delimiter :: rest.take (maxHeader - header.length)).takeWhile
      (· != delimiter) = header := by
    have hkept : ∀ b ∈ header, (b != delimiter) = true := fun b hb =>
      bne_iff_ne.mpr fun hc => hnot (hc ▸ hb)
    rw [List.takeWhile_append_of_pos hkept]
    simp only [List.takeWhile, bne_self_eq_false, List.append_nil]
  rw [header?, htake, hwhile]
  simp only [List.length_append, List.length_cons]
  rw [if_pos (by omega)]

theorem header?_of_absent (buffer : Bytes) (h : delimiter ∉ buffer.take (maxHeader + 1)) :
    header? buffer = none := by
  have hwhile : (buffer.take (maxHeader + 1)).takeWhile (· != delimiter)
      = buffer.take (maxHeader + 1) :=
    List.takeWhile_eq_self_iff.mpr fun b hb => bne_iff_ne.mpr fun hc => h (hc ▸ hb)
  rw [header?, hwhile, if_neg (Nat.lt_irrefl _)]

/-- A buffer has one of two shapes: a delimiter closes its header, or there is none where it would
    have to be. -/
theorem split_or_absent (buffer : Bytes) :
    (∃ header rest, buffer = header ++ delimiter :: rest ∧ delimiter ∉ header
      ∧ header.length ≤ maxHeader)
      ∨ delimiter ∉ buffer.take (maxHeader + 1) := by
  by_cases hmem : delimiter ∈ buffer.take (maxHeader + 1)
  · rcases List.eq_append_cons_of_mem hmem with ⟨header, front, hfront, hnot⟩
    refine Or.inl ⟨header, front ++ buffer.drop (maxHeader + 1), ?_, hnot, ?_⟩
    · rw [← List.cons_append, ← List.append_assoc, ← hfront, List.take_append_drop]
    · have hlength := congrArg List.length hfront
      simp only [List.length_take, List.length_append, List.length_cons] at hlength
      omega
  · exact Or.inr hmem

/-! ## Answers -/

theorem decode_of_absent (limit : Nat) (buffer : Bytes)
    (h : delimiter ∉ buffer.take (maxHeader + 1)) :
    decode limit buffer
      = if maxHeader < buffer.length then .refused .invalidHeader buffer else .nothing := by
  rw [decode, header?_of_absent buffer h]

/-- What is found where a header announces a body that is there in full. -/
def opened (length : Nat) (body : Bytes) : Found :=
  match Json.parse (body.take length) with
  | .ok v => .frame v (body.drop length)
  | .error fault => .refused (.json fault) (body.drop length)

/-- The answer where a delimiter closes the header. -/
theorem decode_of_split (limit : Nat) (header body : Bytes) (hnot : delimiter ∉ header)
    (hlength : header.length ≤ maxHeader) :
    decode limit (header ++ delimiter :: body)
      = match length? header with
        | none => .refused .invalidHeader (header ++ delimiter :: body)
        | some length =>
          if limit < length then .refused (.tooLarge length limit) (header ++ delimiter :: body)
          else if 0x10000000000000000 ≤ header.length + 1 + length then
            .refused (.broken .sum) (header ++ delimiter :: body)
          else if length ≤ body.length then opened length body
          else if capacity < header.length + 1 + length then
            .refused (.broken .room) (header ++ delimiter :: body)
          else .nothing := by
  have hdrop : (header ++ delimiter :: body).drop (header.length + 1) = body := by
    rw [List.drop_append, List.drop_of_length_le (by omega), List.nil_append,
      Nat.add_sub_cancel_left, List.drop_succ_cons, List.drop_zero]
  have hsize : (header ++ delimiter :: body).length = header.length + 1 + body.length := by
    simp only [List.length_append, List.length_cons]
    omega
  rw [decode, header?_of_split header body hnot hlength]
  simp only [holds_eq, hdrop, hsize, decide_eq_true_eq, Nat.add_le_add_iff_left]
  rfl

/-- The same answer where more octets are left over. -/
def Found.extend (more : Bytes) : Found → Found
  | .nothing => .nothing
  | .frame body rest => .frame body (rest ++ more)
  | .refused error rest => .refused error (rest ++ more)

theorem opened_append (length : Nat) (body more : Bytes) (h : length ≤ body.length) :
    opened length (body ++ more) = (opened length body).extend more := by
  rw [opened, opened, List.take_append_of_le_length h, List.drop_append_of_le_length h]
  cases Json.parse (body.take length) <;> rfl

/-- An answer, once given, is not changed by octets that come later. -/
theorem decode_append (limit : Nat) (buffer more : Bytes)
    (hroomy : Roomy limit (buffer ++ more).length) (h : decode limit buffer ≠ .nothing) :
    decode limit (buffer ++ more) = (decode limit buffer).extend more := by
  rcases split_or_absent buffer with ⟨header, body, rfl, hnot, hlength⟩ | habsent
  · rw [List.append_assoc, List.cons_append] at hroomy ⊢
    rw [decode_of_split limit header body hnot hlength] at h ⊢
    rw [decode_of_split limit header (body ++ more) hnot hlength]
    cases hvalue : length? header with
    | none => simp only [Found.extend, List.append_assoc, List.cons_append]
    | some length =>
        simp only [hvalue] at h ⊢
        by_cases hlarge : limit < length
        · simp only [if_pos hlarge, Found.extend, List.append_assoc, List.cons_append]
        rw [if_neg hlarge] at h
        rw [if_neg hlarge, if_neg hlarge]
        by_cases hsum : 0x10000000000000000 ≤ header.length + 1 + length
        · simp only [if_pos hsum, Found.extend, List.append_assoc, List.cons_append]
        rw [if_neg hsum] at h
        rw [if_neg hsum, if_neg hsum]
        by_cases henough : length ≤ body.length
        · -- The body is there in full, and it does not change.
          rw [if_pos henough, if_pos (henough.trans (List.prefix_append body more).length_le),
            opened_append length body more henough]
        · rw [if_neg henough] at h
          rw [if_neg henough]
          have hlong : capacity < header.length + 1 + length := by
            by_contra hc
            exact h (if_neg hc)
          -- More than a buffer may hold is missing, and it cannot all be among what comes later.
          have hmissing : ¬ length ≤ (body ++ more).length := by
            simp only [Roomy, List.length_append, List.length_cons] at hroomy
            rw [List.length_append]
            rw [maxHeader] at hlength
            omega
          rw [if_pos hlong, if_neg hmissing, if_pos hlong, Found.extend, List.append_assoc,
            List.cons_append]
  · -- Without a delimiter only a buffer that is too long is answered, and it stays too long.
    rw [decode_of_absent limit buffer habsent] at h ⊢
    have hlong : maxHeader < buffer.length := by
      by_contra hc
      exact h (if_neg hc)
    have hsame : (buffer ++ more).take (maxHeader + 1) = buffer.take (maxHeader + 1) :=
      List.take_append_of_le_length hlong
    have hlonger : maxHeader < (buffer ++ more).length := by
      rw [List.length_append]
      omega
    rw [decode_of_absent limit (buffer ++ more) (by rw [hsame]; exact habsent), if_pos hlong,
      if_pos hlonger]
    rfl

theorem opened_rest_le (length : Nat) (body rest : Bytes) (v : Json)
    (h : opened length body = .frame v rest) : rest.length ≤ body.length := by
  rw [opened] at h
  cases hparse : Json.parse (body.take length) with
  | ok w =>
      simp only [hparse, Found.frame.injEq] at h
      rw [← h.2, List.length_drop]
      omega
  | error fault =>
      simp only [hparse] at h
      exact Found.noConfusion h

/-- A frame takes a digit and the delimiter at least. -/
theorem length_lt_of_frame (limit : Nat) (buffer rest : Bytes) (v : Json)
    (h : decode limit buffer = .frame v rest) : rest.length + 2 ≤ buffer.length := by
  rcases split_or_absent buffer with ⟨header, body, rfl, hnot, hlength⟩ | habsent
  · rw [decode_of_split limit header body hnot hlength] at h
    cases hvalue : length? header with
    | none =>
        simp only [hvalue] at h
        exact Found.noConfusion h
    | some length =>
        -- No octets at all are no length.
        have hheader : header ≠ [] := fun hc => by
          rw [hc] at hvalue
          exact absurd hvalue (Option.some_ne_none length).symm
        have hpos := List.length_pos_iff.mpr hheader
        simp only [hvalue] at h
        -- A frame is found only where the body is opened.
        by_cases henough : length ≤ body.length
        · rw [if_pos henough] at h
          split at h
          · exact Found.noConfusion h
          · split at h
            · exact Found.noConfusion h
            · have hrest := opened_rest_le length body rest v h
              simp only [List.length_append, List.length_cons]
              omega
        · rw [if_neg henough] at h
          repeat' split at h
          all_goals exact Found.noConfusion h
  · rw [decode_of_absent limit buffer habsent] at h
    split at h
    · exact Found.noConfusion h
    · exact Found.noConfusion h

/-! ## Repeated Decoding -/

/-- The frames found so far come first, and have no part in what is found after them. -/
theorem drainWith_acc (find : Bytes → Found) (fuel : Nat) (acc : List Json) (buffer : Bytes) :
    drainWith find fuel acc buffer
      = { drainWith find fuel [] buffer with
          frames := acc.reverse ++ (drainWith find fuel [] buffer).frames } := by
  induction fuel generalizing acc buffer with
  | zero => simp only [drainWith, List.reverse_nil, List.append_nil]
  | succ fuel ih =>
      cases hfind : find buffer with
      | nothing => simp only [drainWith, hfind, List.reverse_nil, List.append_nil]
      | refused e rest => simp only [drainWith, hfind, List.reverse_nil, List.append_nil]
      | frame v rest =>
          simp only [drainWith, hfind]
          rw [ih (v :: acc) rest, ih [v] rest]
          simp only [List.reverse_cons, List.reverse_nil, List.nil_append, List.append_assoc]

/-- More rounds than there are octets make no difference. -/
theorem drainWith_fuel (find : Bytes → Found)
    (hfind : ∀ buffer v rest, find buffer = .frame v rest → rest.length < buffer.length)
    (fuel more : Nat) (acc : List Json) (buffer : Bytes) (hfuel : buffer.length < fuel) :
    drainWith find (fuel + more) acc buffer = drainWith find fuel acc buffer := by
  induction fuel generalizing acc buffer with
  | zero => omega
  | succ fuel ih =>
      rw [Nat.succ_add]
      cases h : find buffer with
      | nothing => simp only [drainWith, h]
      | refused e rest => simp only [drainWith, h]
      | frame v rest =>
          -- Each round is paid for by an octet that the frame took.
          have hless := hfind buffer v rest h
          simp only [drainWith, h]
          exact ih (v :: acc) rest (by omega)

section Drain

variable {limit : Nat}

theorem drain_of_nothing (buffer : Bytes) (h : decode limit buffer = .nothing) :
    drain limit buffer = ⟨[], none, buffer⟩ := by
  simp only [drain, drainWith, h, List.reverse_nil]

theorem drain_of_refused (buffer rest : Bytes) (e : FrameError)
    (h : decode limit buffer = .refused e rest) : drain limit buffer = ⟨[], some e, rest⟩ := by
  simp only [drain, drainWith, h, List.reverse_nil]

theorem drain_of_frame (buffer rest : Bytes) (v : Json)
    (h : decode limit buffer = .frame v rest) :
    drain limit buffer
      = { drain limit rest with frames := v :: (drain limit rest).frames } := by
  have hfind : ∀ buffer v rest, decode limit buffer = .frame v rest
      → rest.length < buffer.length := fun buffer v rest h => by
    have := length_lt_of_frame limit buffer rest v h
    omega
  have hless := hfind buffer v rest h
  have hfuel : drainWith (decode limit) buffer.length [] rest
      = drainWith (decode limit) (rest.length + 1) [] rest := by
    rw [show buffer.length = rest.length + 1 + (buffer.length - (rest.length + 1)) by omega]
    exact drainWith_fuel (decode limit) hfind _ _ [] rest (Nat.lt_succ_self _)
  simp only [drain, drainWith, h]
  rw [drainWith_acc, hfuel]
  rfl

end Drain

end Frame

end Gateway
