import Gateway.Proofs.Frame.Decoding
import Gateway.Proofs.Json.RoundTrip

/-!
# A Stream of Values

Values are put into a buffer one after another, each in a frame of its own, and are found in it one
after another. A value whose text is longer than the limit is refused with the length of its text,
and the buffer stays as it was, so the values around it are none the worse.

The length that is announced counts octets, and the header that announces it is decimal and never
longer than a header may be. The decoder therefore finds the delimiter where it was put
(`decode_frame`), takes as many octets as were written, and reads them as the value, because texts
are read back. Each frame is taken off the front of the buffer and leaves the others, which is an
induction over the values that were let through.

## Main definitions

* `encodeAll`: Puts values into a buffer one after another.
* `fits`: Whether the text of a value is within the limit.

## Theorems

* `decode_frame_opened`, `decode_frame`: A frame is found at the front of a buffer.
* `encodeAll_eq`: The buffer holds the frames of the values that fit.
* `drain_stream`: Frames are decoded to the values that they were made of.
* `encodeAll_round_trip`: Encoding and decoding a whole stream.
-/

namespace Gateway

namespace Frame

/-! ## Headers -/

theorem delimiter_not_mem_digits (n : Nat) : delimiter ∉ Decimal.digits n := fun h =>
  absurd (Decimal.isDigit_of_mem_digits n delimiter h) (by decide)

theorem length?_digits (n : Nat) (h : n < 0x10000000000000000) :
    length? (Decimal.digits n) = some n := by
  have hempty : (Decimal.digits n).isEmpty = false :=
    List.isEmpty_eq_false_iff.mpr (Decimal.digits_ne_nil n)
  have hall : (Decimal.digits n).all Decimal.isDigit = true :=
    List.all_eq_true.mpr (Decimal.isDigit_of_mem_digits n)
  rw [length?, hempty, hall, Decimal.value_digits, if_pos h]
  rfl

theorem length_digits_le_maxHeader (n : Nat) (h : n < 0x10000000000000000) :
    (Decimal.digits n).length ≤ maxHeader :=
  Decimal.length_digits_le n 19 (by omega)

/-! ## One Frame -/

/-- A frame that is there in full is opened, whatever its body is, if its extent is a word. -/
theorem decode_frame_opened (limit : Nat) (body rest : Bytes) (hbody : body.length ≤ limit)
    (hextent : (frame body).length < 0x10000000000000000) :
    decode limit (frame body ++ rest) = opened body.length (body ++ rest) := by
  have hshape : frame body ++ rest
      = Decimal.digits body.length ++ delimiter :: (body ++ rest) := by
    rw [frame, List.append_assoc, List.cons_append]
  have hsum : (Decimal.digits body.length).length + 1 + body.length < 0x10000000000000000 := by
    rw [frame, List.length_append, List.length_cons] at hextent
    omega
  have hword : body.length < 0x10000000000000000 := by omega
  rw [hshape, decode_of_split limit _ _ (delimiter_not_mem_digits body.length)
    (length_digits_le_maxHeader body.length hword)]
  -- Neither is the length over the limit nor is any of the body missing.
  simp only [length?_digits body.length hword, List.length_append]
  rw [if_neg (Nat.not_lt_of_le hbody), if_neg (Nat.not_le_of_lt hsum),
    if_pos (Nat.le_add_right _ _)]

theorem length_frame_le (body : Bytes) (h : body.length < 0x10000000000000000) :
    (frame body).length ≤ body.length + 21 := by
  have hheader := length_digits_le_maxHeader body.length h
  rw [maxHeader] at hheader
  rw [frame, List.length_append, List.length_cons]
  omega

/-- A frame is found at the front of a buffer, and what follows it is left. -/
theorem decode_frame (limit : Nat) (body rest : Bytes) (v : Json)
    (hlimit : limit + 21 < 0x10000000000000000) (hbody : body.length ≤ limit)
    (hv : Json.parse body = .ok v) : decode limit (frame body ++ rest) = .frame v rest := by
  have hframe := length_frame_le body (by omega)
  rw [decode_frame_opened limit body rest hbody (by omega)]
  simp only [opened, List.take_left, List.drop_left, hv]

/-! ## Many Frames -/

/-- Puts values into a buffer one after another. Gives the buffer after all of them, and for each of
    them how it went. -/
def encodeAll (limit : Nat) : Bytes → List Json → Bytes × List (Except FrameError Unit)
  | buffer, [] => (buffer, [])
  | buffer, v :: vs =>
    let (buffer, outcome) := put limit v.write buffer
    let (buffer, outcomes) := encodeAll limit buffer vs
    (buffer, outcome :: outcomes)

/-- Whether the text of a value is within the limit. -/
def fits (limit : Nat) (v : Json) : Bool :=
  v.write.length ≤ limit

/-- The frames of values, one after another. -/
def stream (vs : List Json) : Bytes :=
  vs.flatMap fun v => frame v.write

/-- How putting a value into a buffer goes. -/
def outcome (limit : Nat) (v : Json) : Except FrameError Unit :=
  if v.write.length ≤ limit then .ok () else .error (.tooLarge v.write.length limit)

theorem put_of_le (limit : Nat) (body buffer : Bytes) (h : body.length ≤ limit) :
    put limit body buffer = (buffer ++ frame body, .ok ()) := by
  rw [put, if_neg (Nat.not_lt.mpr h)]

theorem put_of_lt (limit : Nat) (body buffer : Bytes) (h : limit < body.length) :
    put limit body buffer = (buffer, .error (.tooLarge body.length limit)) := by
  rw [put, if_pos h]

theorem encode_of_le (limit : Nat) (body buffer : Bytes) (h : body.length ≤ limit) :
    encode limit body buffer = .ok (buffer ++ frame body) := by
  rw [encode, put_of_le limit body buffer h]

theorem encode_of_lt (limit : Nat) (body buffer : Bytes) (h : limit < body.length) :
    encode limit body buffer = .error (.tooLarge body.length limit) := by
  rw [encode, put_of_lt limit body buffer h]

/-- The buffer holds the frames of the values that fit, behind what was there before. -/
theorem encodeAll_eq (limit : Nat) (vs : List Json) (buffer : Bytes) :
    encodeAll limit buffer vs
      = (buffer ++ stream (vs.filter (fits limit)), vs.map (outcome limit)) := by
  induction vs generalizing buffer with
  | nil => rw [encodeAll, List.filter_nil, stream, List.flatMap_nil, List.append_nil, List.map_nil]
  | cons v vs ih =>
      rw [encodeAll, List.map_cons, outcome]
      by_cases hv : v.write.length ≤ limit
      · have hfits : fits limit v = true := decide_eq_true hv
        rw [put_of_le limit _ _ hv, if_pos hv, List.filter_cons_of_pos hfits, stream,
          List.flatMap_cons]
        simp only [ih, stream, List.append_assoc]
      · have hfits : ¬ fits limit v = true := fun h => hv (of_decide_eq_true h)
        rw [put_of_lt limit _ _ (Nat.lt_of_not_le hv), if_neg hv, List.filter_cons_of_neg hfits]
        simp only [ih]

/-- Frames are decoded to the values that they were made of, to the last octet. -/
theorem drain_stream (limit : Nat) (vs : List Json) (hlimit : limit + 21 < 0x10000000000000000)
    (hfits : ∀ v ∈ vs, fits limit v = true)
    (hvs : ∀ v ∈ vs, v.nesting ≤ Json.maxNesting ∧ v.WellFormed ∧ v.Integral) :
    drain limit (stream vs) = ⟨vs, none, []⟩ := by
  induction vs with
  | nil => exact drain_of_nothing [] (decode_of_absent limit [] List.not_mem_nil)
  | cons v vs ih =>
      rcases hvs v List.mem_cons_self with ⟨hdepth, hw, hv⟩
      have hfound : decode limit (frame v.write ++ stream vs) = .frame v (stream vs) := by
        have hshort : v.write.length ≤ limit := of_decide_eq_true (hfits v List.mem_cons_self)
        exact decode_frame limit v.write _ v hlimit hshort (Json.parse_write v hdepth hw hv)
      -- The other frames are decoded from what the first one leaves.
      have hrest := ih (fun w hmem => hfits w (List.mem_cons_of_mem v hmem))
        fun w hmem => hvs w (List.mem_cons_of_mem v hmem)
      rw [stream, List.flatMap_cons, ← stream, drain_of_frame _ _ v hfound, hrest]

/-- Encoding and decoding a whole stream. Every value whose text is within the limit is taken, and
    no other. One that is too long is refused with the length of its text and leaves the buffer as
    the values before it left it. What is decoded from the buffer are the values that were taken,
    in their order, and then there is neither an error nor anything left. That members are sorted
    by key is how objects are kept, and all that were read are (`Json.within_of_parse`). -/
theorem encodeAll_round_trip (limit : Nat) (vs : List Json)
    (hlimit : limit + 21 < 0x10000000000000000)
    (hvs : ∀ v ∈ vs, v.nesting ≤ 127 ∧ v.WellFormed ∧ v.Integral) :
    (encodeAll limit [] vs).2
        = vs.map (fun v => if v.write.length ≤ limit then .ok ()
          else .error (.tooLarge v.write.length limit))
      ∧ (∀ before v after, vs = before ++ v :: after → limit < v.write.length →
        put limit v.write (encodeAll limit [] before).1
            = ((encodeAll limit [] before).1, .error (.tooLarge v.write.length limit))
          ∧ (encodeAll limit [] (before ++ [v])).1 = (encodeAll limit [] before).1)
      ∧ drain limit (encodeAll limit [] vs).1
        = ⟨vs.filter (fun v => v.write.length ≤ limit), none, []⟩ := by
  refine ⟨?_, ?_, ?_⟩
  · rw [encodeAll_eq]
    rfl
  · intro before v after _ hlong
    have hfits : ¬ fits limit v = true := fun h =>
      absurd (of_decide_eq_true h) (Nat.not_le.mpr hlong)
    refine ⟨put_of_lt limit _ _ hlong, ?_⟩
    rw [encodeAll_eq, encodeAll_eq, List.filter_append, List.filter_cons_of_neg hfits,
      List.filter_nil, List.append_nil]
  · -- Only values that were let through are in the buffer, and these fit.
    rw [encodeAll_eq, List.nil_append]
    exact drain_stream limit _ hlimit (fun v hv => (List.mem_filter.mp hv).2)
      fun v hv => hvs v (List.mem_filter.mp hv).1

/-- Three values, the second of which is longer than the other two. -/
def threeValues : List Json :=
  [.object [("a", .number (.integer (-5) (by decide))), ("b", .array [.null, .string "é\n"])],
    .string "longer than both the others", .array []]

theorem encodeAll_round_trip_three_values : 26 + 21 < 0x10000000000000000
    ∧ (∀ v ∈ threeValues, v.nesting ≤ 127 ∧ v.WellFormed ∧ v.Integral)
    ∧ (encodeAll 26 [] threeValues).2 = [.ok (), .error (.tooLarge 29 26), .ok ()]
    ∧ drain 26 (encodeAll 26 [] threeValues).1
      = ⟨[.object [("a", .number (.integer (-5) (by decide))),
          ("b", .array [.null, .string "é\n"])], .array []], none, []⟩ := by
  have hvalues : ∀ v ∈ threeValues, v.nesting ≤ 127 ∧ v.WellFormed ∧ v.Integral := by
    intro v hv
    simp only [threeValues, List.mem_cons, List.not_mem_nil, or_false] at hv
    have hkeys : "a" < "b" := by decide
    rcases hv with rfl | rfl | rfl
    · exact ⟨by decide,
        ⟨List.pairwise_pair.mpr hkeys, trivial, ⟨trivial, trivial, trivial⟩, trivial⟩,
        trivial, ⟨trivial, trivial, trivial⟩, trivial⟩
    · exact ⟨by decide, trivial, trivial⟩
    · exact ⟨by decide, trivial, trivial⟩
  rcases encodeAll_round_trip 26 threeValues (by decide) hvalues with ⟨houtcomes, _, hdrain⟩
  refine ⟨by decide, hvalues, houtcomes.trans ?_, hdrain.trans ?_⟩
  · cbv
  · cbv

end Frame

end Gateway
