import Gateway.Json.Reader
import Gateway.Proofs.Text.Encoding

/-!
# Strings Are Read Back

A text between quotes is written character by character, and read octet by octet. What the two have
in common is a character: whatever way one is written in, as an escape of two letters, by its number
or as it is, the reader comes out at the end of it with its octets added to those collected so far
(`readText_escapeChar`). A whole text follows by induction, and the octets of its characters are the
octets of the text.

A character that is written as it is has no octet that means anything to the reader. For one octet
this is what the conditions on escapes leave; the octets of a longer character are all above those
that are looked for.

## Main definitions

* `isPlain`: Whether an octet stands for itself between quotes.

## Theorems

* `readText_plain`, `readText_short`, `readText_number`: What the reader does with each way of
  writing.
* `readText_escapeChar`: A character is read back.
* `readString_written`: A text is read back, and what follows its quotes is left.
-/

namespace Gateway

namespace Json

/-- Whether an octet stands for itself between quotes. -/
def isPlain (b : UInt8) : Prop :=
  b ≠ ascii '"' ∧ b ≠ ascii '\\' ∧ 32 ≤ b.toNat

/-! ## Steps -/

theorem readText_quote (acc rest : Bytes) :
    readText acc (ascii '"' :: rest) = .ok (acc.reverse, rest) := by
  rw [readText.eq_def]
  exact if_pos (beq_self_eq_true _)

theorem readText_plain (acc octets rest : Bytes) (h : ∀ b ∈ octets, isPlain b) :
    readText acc (octets ++ rest) = readText (octets.reverse ++ acc) rest := by
  induction octets generalizing acc with
  | nil => rfl
  | cons b bs ih =>
      rcases h b List.mem_cons_self with ⟨hquote, hslash, hcontrol⟩
      have hstep : readText acc (b :: (bs ++ rest)) = readText (b :: acc) (bs ++ rest) := by
        rw [readText.eq_def]
        simp only [beq_iff_eq, if_neg hquote, if_neg hslash, if_neg (Nat.not_lt.mpr hcontrol)]
      rw [List.cons_append, hstep, ih (b :: acc) fun b hb => h b (List.mem_cons_of_mem _ hb),
        List.reverse_cons, List.append_assoc, List.singleton_append]

/-- An escape of two letters. -/
theorem readText_short (acc rest : Bytes) (e b : UInt8) (hletter : e ≠ ascii 'u')
    (h : escaped? e = some b) :
    readText acc (ascii '\\' :: e :: rest) = readText (b :: acc) rest := by
  have hslash : ascii '\\' ≠ ascii '"' := by decide
  rw [readText.eq_def]
  simp only [beq_iff_eq, if_neg hslash, if_true, if_neg hletter, h]

/-- An escape by number, if it is none of a surrogate. -/
theorem readText_number (acc rest : Bytes) (h₁ h₂ h₃ h₄ : UInt8) (n : Nat)
    (h : hexWord? h₁ h₂ h₃ h₄ = some n) (hn : n < 0xD800) :
    readText acc (ascii '\\' :: ascii 'u' :: h₁ :: h₂ :: h₃ :: h₄ :: rest)
      = readText (pushChar n acc) rest := by
  have hlow : ¬ isLowSurrogate n = true := by
    rw [isLowSurrogate, Bool.and_eq_true, decide_eq_true_eq]
    omega
  have hhigh : ¬ isHighSurrogate n = true := by
    rw [isHighSurrogate, Bool.and_eq_true, decide_eq_true_eq]
    omega
  have hslash : ascii '\\' ≠ ascii '"' := by decide
  rw [readText.eq_def]
  simp only [beq_iff_eq, if_neg hslash, if_true, h, if_neg hlow, if_neg hhigh]

/-! ## Characters -/

theorem isPlain_of_mem_encodeChar (c : Char) (hquote : c ≠ '"') (hslash : c ≠ '\\')
    (hcontrol : 32 ≤ c.toNat) (b : UInt8) (hb : b ∈ Utf8.encodeChar c) : isPlain b := by
  have hlast := Utf8.toNat_lt c
  by_cases hone : c.toNat < 0x80
  -- A single octet is the number of the character, and the escapes have the bad ones.
  · rw [Utf8.encodeChar, if_pos hone, List.mem_singleton] at hb
    have hsame (d : Char) (hd : d.toNat < 0x80) (h : c.toNat.toUInt8 = ascii d) : c = d := by
      have hnat := congrArg UInt8.toNat h
      rw [ascii, Utf8.toNat_toUInt8 _ (by omega), Utf8.toNat_toUInt8 _ (by omega)] at hnat
      exact Char.toNat_inj.mp hnat
    rw [hb]
    refine ⟨fun h => hquote (hsame '"' (by decide) h), fun h => hslash (hsame '\\' (by decide) h), ?_⟩
    rw [Utf8.toNat_toUInt8 _ (by omega)]
    exact hcontrol
  -- Every octet of a longer character is beyond those that are looked for.
  · have hhigh : 0x80 ≤ b.toNat := by
      by_cases htwo : c.toNat < 0x800
      · simp only [Utf8.encodeChar, if_neg hone, if_pos htwo, List.mem_cons, List.not_mem_nil,
          or_false] at hb
        rcases hb with rfl | rfl <;> rw [Utf8.toNat_toUInt8 _ (by omega)] <;> omega
      by_cases hthree : c.toNat < 0x10000
      · simp only [Utf8.encodeChar, if_neg hone, if_neg htwo, if_pos hthree, List.mem_cons,
          List.not_mem_nil, or_false] at hb
        rcases hb with rfl | rfl | rfl <;> rw [Utf8.toNat_toUInt8 _ (by omega)] <;> omega
      · simp only [Utf8.encodeChar, if_neg hone, if_neg htwo, if_neg hthree, List.mem_cons,
          List.not_mem_nil, or_false] at hb
        rcases hb with rfl | rfl | rfl | rfl <;> rw [Utf8.toNat_toUInt8 _ (by omega)] <;> omega
    refine ⟨fun h => ?_, fun h => ?_, by omega⟩
    · rw [h] at hhigh
      exact absurd hhigh (by decide)
    · rw [h] at hhigh
      exact absurd hhigh (by decide)

theorem hexValue?_hexDigit (n : Nat) (h : n < 16) : hexValue? (hexDigit n) = some n := by
  by_cases hn : n < 10
  · rw [hexDigit, if_pos hn]
    simp only [hexValue?, Utf8.toNat_toUInt8 (48 + n) (by omega)]
    rw [if_pos (by omega), Nat.add_sub_cancel_left]
  · rw [hexDigit, if_neg hn]
    simp only [hexValue?, Utf8.toNat_toUInt8 (87 + n) (by omega)]
    rw [if_neg (by omega), if_pos (by omega), Nat.add_sub_cancel_left]

theorem hexWord?_control (n : Nat) (h : n < 32) :
    hexWord? (ascii '0') (ascii '0') (hexDigit (n / 16)) (hexDigit (n % 16)) = some n := by
  have hzero : hexValue? (ascii '0') = some 0 := rfl
  simp only [hexWord?, hzero, hexValue?_hexDigit (n / 16) (by omega),
    hexValue?_hexDigit (n % 16) (by omega), Option.bind_eq_bind, Option.bind_some, Option.pure_def,
    Option.some.injEq]
  omega

/-- A letter that stands for a control character of one octet. -/
theorem readText_letter (acc rest : Bytes) (c : Char) (e : UInt8) (hletter : e ≠ ascii 'u')
    (h : escaped? e = some c.toNat.toUInt8) (hone : c.toNat < 0x80) :
    readText acc ([ascii '\\', e] ++ rest)
      = readText ((Utf8.encodeChar c).reverse ++ acc) rest := by
  rw [Utf8.encodeChar, if_pos hone]
  exact readText_short acc rest e c.toNat.toUInt8 hletter h

/-- A character is read back, whatever way it is written in. -/
theorem readText_escapeChar (acc rest : Bytes) (c : Char) :
    readText acc (escapeChar c ++ rest) = readText ((Utf8.encodeChar c).reverse ++ acc) rest := by
  -- The cases are those of the writer, in the order in which it tries them.
  by_cases hquote : c = '"'
  · rw [escapeChar, if_pos hquote, hquote]
    exact readText_letter acc rest '"' (ascii '"') (by decide) rfl (by decide)
  rw [escapeChar, if_neg hquote]
  by_cases hslash : c = '\\'
  · rw [if_pos hslash, hslash]
    exact readText_letter acc rest '\\' (ascii '\\') (by decide) rfl (by decide)
  rw [if_neg hslash]
  by_cases hback : c.toNat = 8
  · rw [if_pos hback]
    exact readText_letter acc rest c (ascii 'b') (by decide) (by rw [hback]; rfl) (by omega)
  rw [if_neg hback]
  by_cases htab : c.toNat = 9
  · rw [if_pos htab]
    exact readText_letter acc rest c (ascii 't') (by decide) (by rw [htab]; rfl) (by omega)
  rw [if_neg htab]
  by_cases hline : c.toNat = 10
  · rw [if_pos hline]
    exact readText_letter acc rest c (ascii 'n') (by decide) (by rw [hline]; rfl) (by omega)
  rw [if_neg hline]
  by_cases hform : c.toNat = 12
  · rw [if_pos hform]
    exact readText_letter acc rest c (ascii 'f') (by decide) (by rw [hform]; rfl) (by omega)
  rw [if_neg hform]
  by_cases hreturn : c.toNat = 13
  · rw [if_pos hreturn]
    exact readText_letter acc rest c (ascii 'r') (by decide) (by rw [hreturn]; rfl) (by omega)
  rw [if_neg hreturn]
  by_cases hcontrol : c.toNat < 32
  · rw [if_pos hcontrol]
    simp only [List.cons_append, List.nil_append]
    rw [readText_number acc rest _ _ _ _ c.toNat (hexWord?_control c.toNat hcontrol) (by omega),
      pushChar, Char.ofNat_toNat, List.reverseAux_eq]
  · rw [if_neg hcontrol]
    exact readText_plain acc _ rest
      (isPlain_of_mem_encodeChar c hquote hslash (Nat.le_of_not_lt hcontrol))

/-! ## Texts -/

theorem readText_written (acc rest : Bytes) (cs : List Char) :
    readText acc (cs.flatMap escapeChar ++ ascii '"' :: rest)
      = .ok (acc.reverse ++ Utf8.encodeChars cs, rest) := by
  induction cs generalizing acc with
  | nil => rw [List.flatMap_nil, List.nil_append, readText_quote, Utf8.encodeChars,
      List.flatMap_nil, List.append_nil]
  | cons c cs ih =>
      rw [List.flatMap_cons, List.append_assoc, readText_escapeChar, ih, List.reverse_append,
        List.reverse_reverse, Utf8.encodeChars, Utf8.encodeChars, List.flatMap_cons,
        List.append_assoc]

/-- A text in quotes is the opening one and what `readString` reads. -/
theorem writeString_append (s : String) (rest : Bytes) :
    writeString s ++ rest = ascii '"' :: (s.toList.flatMap escapeChar ++ ascii '"' :: rest) := by
  rw [writeString, List.cons_append, List.append_assoc, List.singleton_append]

/-- A text is read back, and what follows its quotes is left. -/
theorem readString_written (s : String) (rest : Bytes) :
    readString (s.toList.flatMap escapeChar ++ ascii '"' :: rest) = .ok (s, rest) := by
  rw [readString, readText_written]
  simp only [List.reverse_nil, List.nil_append, Utf8.decode_encodeChars, String.ofList_toList]

end Json

end Gateway
