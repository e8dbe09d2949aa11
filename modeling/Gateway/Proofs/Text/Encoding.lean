import Gateway.Text.Utf8

/-!
# Texts Survive Their Encoding

A text is written as octets and read back from them, and nothing is lost on the way. A character is
read back wherever it stands, whatever follows it (`decodeChar_encodeChar`), because the first octet
tells how many there are. Readers of JSON rest on this: what they have collected from between quotes
is a row of characters, one after another.

The four lengths of a character are four cases, and in each of them the number of the character is
put together again from its digits to the base of sixty-four.

## Theorems

* `scalar?_toNat`, `tail?_continuation`: The parts that characters are read from.
* `decodeChar_encodeChar`: A character is read back, and what follows it is left.
* `decode_encodeChars`, `decode_encode`: A text is read back.
-/

namespace Gateway

namespace Utf8

/-! ## Characters -/

theorem toNat_toUInt8 (n : Nat) (h : n < 256) : n.toUInt8.toNat = n :=
  UInt8.toNat_ofNat_of_lt' h

theorem toNat_lt (c : Char) : c.toNat < 0x110000 := by
  have hvalid : c.toNat.isValidChar := c.valid
  simp only [Nat.isValidChar] at hvalid
  omega

theorem scalar?_toNat (least : Nat) (c : Char) (h : least ≤ c.toNat) :
    scalar? least c.toNat = some c := by
  have hvalid : c.toNat.isValidChar := c.valid
  -- The number of a character is that of a character, and of no other.
  have hchar := Char.ofNat_toNat c
  rw [Char.ofNat, dif_pos hvalid] at hchar
  rw [scalar?, dif_pos ⟨h, hvalid⟩, hchar]

theorem tail?_continuation (x : Nat) (h : x < 64) : tail? (0x80 + x).toUInt8 = some x := by
  rw [tail?, toNat_toUInt8 _ (by omega), if_pos (by omega), Nat.add_sub_cancel_left]

section Lengths

variable {a b c d : UInt8} {x y z : Nat} {r : Char} (rest : Bytes)

theorem decodeChar_one (ha : a.toNat < 0x80) (hr : scalar? 0 a.toNat = some r) :
    decodeChar (a :: rest) = some (r, rest) := by
  rw [decodeChar.eq_def]
  simp only [if_pos ha, hr, Option.map_some]

theorem decodeChar_two (hlow : 0xC0 ≤ a.toNat) (hhigh : a.toNat < 0xE0) (hb : tail? b = some x)
    (hr : scalar? 0x80 ((a.toNat - 0xC0) * 64 + x) = some r) :
    decodeChar (a :: b :: rest) = some (r, rest) := by
  rw [decodeChar, if_neg (by omega), if_neg (by omega), if_pos hhigh]
  exact Option.bind_eq_some_iff.mpr ⟨x, hb, Option.bind_eq_some_iff.mpr ⟨r, hr, rfl⟩⟩

theorem decodeChar_three (hlow : 0xE0 ≤ a.toNat) (hhigh : a.toNat < 0xF0) (hb : tail? b = some x)
    (hc : tail? c = some y)
    (hr : scalar? 0x800 ((a.toNat - 0xE0) * 4096 + x * 64 + y) = some r) :
    decodeChar (a :: b :: c :: rest) = some (r, rest) := by
  rw [decodeChar, if_neg (by omega), if_neg (by omega), if_neg (by omega), if_pos hhigh]
  exact Option.bind_eq_some_iff.mpr ⟨x, hb, Option.bind_eq_some_iff.mpr ⟨y, hc,
    Option.bind_eq_some_iff.mpr ⟨r, hr, rfl⟩⟩⟩

theorem decodeChar_four (hlow : 0xF0 ≤ a.toNat) (hhigh : a.toNat < 0xF8) (hb : tail? b = some x)
    (hc : tail? c = some y) (hd : tail? d = some z)
    (hr : scalar? 0x10000 ((a.toNat - 0xF0) * 262144 + x * 4096 + y * 64 + z) = some r) :
    decodeChar (a :: b :: c :: d :: rest) = some (r, rest) := by
  rw [decodeChar, if_neg (by omega), if_neg (by omega), if_neg (by omega), if_neg (by omega),
    if_pos hhigh]
  -- The parts are given one after another: unfolding `scalar?` at numbers like these takes long.
  exact Option.bind_eq_some_iff.mpr ⟨x, hb, Option.bind_eq_some_iff.mpr ⟨y, hc,
    Option.bind_eq_some_iff.mpr ⟨z, hd, Option.bind_eq_some_iff.mpr ⟨r, hr, rfl⟩⟩⟩⟩

end Lengths

/-- A character is read back, and what follows it is left. -/
theorem decodeChar_encodeChar (c : Char) (rest : Bytes) :
    decodeChar (encodeChar c ++ rest) = some (c, rest) := by
  have hlast := toNat_lt c
  by_cases hone : c.toNat < 0x80
  · have hfirst := toNat_toUInt8 c.toNat (by omega)
    rw [encodeChar, if_pos hone]
    exact decodeChar_one rest (by omega) (by rw [hfirst]; exact scalar?_toNat 0 c (Nat.zero_le _))
  -- In the other cases the number is put together from its digits to the base of sixty-four.
  by_cases htwo : c.toNat < 0x800
  · have hfirst := toNat_toUInt8 (0xC0 + c.toNat / 64) (by omega)
    have hnumber : c.toNat / 64 * 64 + c.toNat % 64 = c.toNat := by omega
    rw [encodeChar, if_neg hone, if_pos htwo]
    refine decodeChar_two rest (by omega) (by omega) (tail?_continuation _ (by omega)) ?_
    rw [hfirst, Nat.add_sub_cancel_left, hnumber]
    exact scalar?_toNat 0x80 c (by omega)
  by_cases hthree : c.toNat < 0x10000
  · have hfirst := toNat_toUInt8 (0xE0 + c.toNat / 4096) (by omega)
    have hnumber : c.toNat / 4096 * 4096 + c.toNat / 64 % 64 * 64 + c.toNat % 64 = c.toNat := by
      omega
    rw [encodeChar, if_neg hone, if_neg htwo, if_pos hthree]
    refine decodeChar_three rest (by omega) (by omega) (tail?_continuation _ (by omega))
      (tail?_continuation _ (by omega)) ?_
    rw [hfirst, Nat.add_sub_cancel_left, hnumber]
    exact scalar?_toNat 0x800 c (by omega)
  · have hfirst := toNat_toUInt8 (0xF0 + c.toNat / 262144) (by omega)
    have hnumber : c.toNat / 262144 * 262144 + c.toNat / 4096 % 64 * 4096 + c.toNat / 64 % 64 * 64
        + c.toNat % 64 = c.toNat := by omega
    rw [encodeChar, if_neg hone, if_neg htwo, if_neg hthree]
    refine decodeChar_four rest (by omega) (by omega) (tail?_continuation _ (by omega))
      (tail?_continuation _ (by omega)) (tail?_continuation _ (by omega)) ?_
    rw [hfirst, Nat.add_sub_cancel_left, hnumber]
    exact scalar?_toNat 0x10000 c (by omega)

/-! ## Texts -/

theorem encodeChar_ne_nil (c : Char) : encodeChar c ≠ [] := fun h => by
  -- Out of no octets no character would be read back.
  have hread := decodeChar_encodeChar c []
  rw [h] at hread
  exact absurd hread (Option.some_ne_none (c, [])).symm

theorem decodeFrom_cons (fuel : Nat) (acc : List Char) (c : Char) (rest : Bytes) :
    decodeFrom (fuel + 1) acc (encodeChar c ++ rest) = decodeFrom fuel (c :: acc) rest := by
  rcases List.exists_cons_of_ne_nil (encodeChar_ne_nil c) with ⟨b, bs, hoctets⟩
  have hread := decodeChar_encodeChar c rest
  rw [hoctets, List.cons_append] at hread ⊢
  simp only [decodeFrom, hread]

theorem length_le_length_encodeChars (cs : List Char) : cs.length ≤ (encodeChars cs).length := by
  induction cs with
  | nil => exact Nat.zero_le _
  | cons c cs ih =>
      have hpos := List.length_pos_iff.mpr (encodeChar_ne_nil c)
      simp only [encodeChars, List.flatMap_cons, List.length_append, List.length_cons] at ih ⊢
      omega

theorem decodeFrom_encodeChars (fuel : Nat) (acc cs : List Char) (hfuel : cs.length ≤ fuel) :
    decodeFrom fuel acc (encodeChars cs) = some (acc.reverse ++ cs) := by
  induction cs generalizing fuel acc with
  | nil => cases fuel <;> simp only [encodeChars, List.flatMap_nil, decodeFrom, List.append_nil]
  | cons c cs ih =>
      rw [List.length_cons] at hfuel
      -- A character takes one off the fuel, and there are no more characters than octets.
      obtain ⟨fuel, rfl⟩ : ∃ n, fuel = n + 1 := ⟨fuel - 1, by omega⟩
      have hnext := ih fuel (c :: acc) (by omega)
      rw [List.reverse_cons, List.append_assoc, List.singleton_append] at hnext
      rw [encodeChars, List.flatMap_cons, decodeFrom_cons]
      exact hnext

/-- The octets of a list of characters are those of the text that it makes up. -/
theorem decode_encodeChars (cs : List Char) :
    decode (encodeChars cs) = some (String.ofList cs) := by
  rw [decode, decodeFrom_encodeChars _ [] cs (length_le_length_encodeChars cs)]
  rfl

/-- A text is read back. -/
theorem decode_encode (s : String) : decode (encode s) = some s := by
  rw [encode, decode_encodeChars, String.ofList_toList]

end Utf8

end Gateway
