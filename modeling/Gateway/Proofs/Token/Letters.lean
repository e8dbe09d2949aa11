import Gateway.Proofs.Text.Encoding
import Gateway.Token.Base64

/-!
# One Spelling for Each Row of Octets

A signature is compared letter by letter, and the other parts of a token are signed as they are
spelled. So it matters that a row of octets has one spelling and no more: if it had two, a token
could be respelled by somebody who does not know the secret. Three checks of the decoder see to
this, one for letters, one for the length and one for the bits to spare at the end, and together
they leave exactly the texts that `encode` writes (`decode_eq_ok_iff`).

In between stand the numbers of the letters. `numbers` gives the numbers that a text is spelled
from, if there are any, and `pack?` undoes what `sextets` does. So either half of the decoder is
turned round by itself.

## Main definitions

* `Base64.sextets`: The numbers that a row of octets is cut into.

## Theorems

* `Base64.numbers_eq_ok_iff`: Which texts are spelled in letters.
* `Base64.pack?_eq_some_iff`: Which numbers make up octets.
* `Base64.decode_eq_ok_iff`: A text is read as octets if and only if it is their spelling.
* `Base64.dot_not_mem_encode`: No spelling has a dot in it.
-/

namespace Gateway

namespace Base64

/-! ## Letters -/

theorem number?_letter {n : Nat} (h : n < 64) : number? (letter n) = some n := by
  revert h n
  decide

/-- A letter is told by its number, which is below sixty-four. -/
theorem of_number?_eq_some {b : UInt8} {n : Nat} (h : number? b = some n) :
    n < 64 ∧ b = letter n := by
  -- The octet is the one with its own number, whichever range that is in.
  have hself (m : Nat) (hm : m = b.toNat) : b = m.toUInt8 := by
    rw [hm]
    exact UInt8.ofNat_toNat.symm
  simp only [number?] at h
  split at h
  · cases h
    exact ⟨by omega, by rw [letter, if_pos (by omega)]; exact hself _ (by omega)⟩
  split at h
  · cases h
    refine ⟨by omega, ?_⟩
    rw [letter, if_neg (by omega), if_pos (by omega)]
    exact hself _ (by omega)
  split at h
  · cases h
    refine ⟨by omega, ?_⟩
    rw [letter, if_neg (by omega), if_neg (by omega), if_pos (by omega)]
    exact hself _ (by omega)
  split at h
  · cases h
    exact ⟨by omega, hself 45 (by omega)⟩
  split at h
  · cases h
    exact ⟨by omega, hself 95 (by omega)⟩
  · cases h

/-- A text has numbers if it is spelled in letters, and then they are those of its letters. -/
theorem numbers_eq_ok_iff (last offset : Nat) (bs : Bytes) (ns : List Nat) :
    numbers last offset bs = .ok ns ↔ bs = ns.map letter ∧ ∀ n ∈ ns, n < 64 := by
  induction bs generalizing offset ns with
  | nil =>
      refine ⟨fun h => ?_, fun ⟨h, _⟩ => ?_⟩
      · cases h
        exact ⟨rfl, fun n hn => absurd hn List.not_mem_nil⟩
      · rw [List.map_eq_nil_iff.mp h.symm]
        rfl
  | cons b bs ih =>
      refine ⟨fun h => ?_, fun ⟨h, hlt⟩ => ?_⟩
      · rw [numbers] at h
        split at h
        · rename_i n hn
          cases hrest : numbers last (offset + 1) bs with
          | error fault =>
              rw [hrest] at h
              cases h
          | ok ms =>
              rw [hrest] at h
              cases h
              rcases of_number?_eq_some hn with ⟨hbelow, rfl⟩
              rcases (ih (offset + 1) ms).mp hrest with ⟨rfl, hms⟩
              exact ⟨rfl, List.forall_mem_cons.mpr ⟨hbelow, hms⟩⟩
        · split at h
          · cases h
          · cases h
      · cases ns with
        | nil => cases h
        | cons n ms =>
            rcases List.cons.inj h with ⟨rfl, hrest⟩
            rcases List.forall_mem_cons.mp hlt with ⟨hbelow, hms⟩
            rw [numbers, number?_letter hbelow]
            simp only [(ih (offset + 1) ms).mpr ⟨hrest, hms⟩]
            rfl

/-! ## Numbers -/

/-- The numbers that a row of octets is cut into, six bits each. -/
def sextets : Bytes → List Nat
  | [] => []
  | [a] => [a.toNat / 4, a.toNat % 4 * 16]
  | [a, b] => [a.toNat / 4, a.toNat % 4 * 16 + b.toNat / 16, b.toNat % 16 * 4]
  | a :: b :: c :: rest =>
    a.toNat / 4 :: (a.toNat % 4 * 16 + b.toNat / 16) :: (b.toNat % 16 * 4 + c.toNat / 64)
      :: c.toNat % 64 :: sextets rest

theorem encode_eq_map (octets : Bytes) : encode octets = (sextets octets).map letter := by
  induction octets using encode.induct with
  | case1 => rfl
  | case2 a => rfl
  | case3 a b => rfl
  | case4 a b c rest ih =>
      rw [encode, sextets, ih]
      rfl

theorem sextets_lt (octets : Bytes) : ∀ n ∈ sextets octets, n < 64 := by
  have hoctet (a : UInt8) : a.toNat < 256 := a.toNat_lt
  induction octets using encode.induct with
  | case1 => exact fun n hn => absurd hn List.not_mem_nil
  | case2 a =>
      have ha := hoctet a
      simp only [sextets, List.forall_mem_cons, List.not_mem_nil, false_imp_iff, implies_true,
        and_true]
      omega
  | case3 a b =>
      have ha := hoctet a
      have hb := hoctet b
      simp only [sextets, List.forall_mem_cons, List.not_mem_nil, false_imp_iff, implies_true,
        and_true]
      omega
  | case4 a b c rest ih =>
      have ha := hoctet a
      have hb := hoctet b
      have hc := hoctet c
      simp only [sextets, List.forall_mem_cons]
      exact ⟨by omega, by omega, by omega, by omega, ih⟩

theorem length_sextets (octets : Bytes) : (sextets octets).length % 4 ≠ 1 := by
  induction octets using encode.induct with
  | case1 => decide
  | case2 a => exact (by decide : 2 % 4 ≠ 1)
  | case3 a b => exact (by decide : 3 % 4 ≠ 1)
  | case4 a b c rest ih =>
      simp only [sextets, List.length_cons]
      omega

/-- An octet is made up from a number, if that is its own. -/
theorem toUInt8_eq {n : Nat} {a : UInt8} (h : n = a.toNat) : n.toUInt8 = a := by
  rw [h]
  exact UInt8.ofNat_toNat

theorem pack?_sextets (octets : Bytes) : pack? (sextets octets) = some octets := by
  have hoctet (a : UInt8) : a.toNat < 256 := a.toNat_lt
  induction octets using encode.induct with
  | case1 => rfl
  | case2 a =>
      have ha := hoctet a
      rw [sextets, pack?, if_pos (by omega), toUInt8_eq (a := a) (by omega)]
  | case3 a b =>
      have hb := hoctet b
      rw [sextets, pack?, if_pos (by omega), toUInt8_eq (a := a) (by omega),
        toUInt8_eq (a := b) (by omega)]
  | case4 a b c rest ih =>
      have hb := hoctet b
      have hc := hoctet c
      rw [sextets, pack?, ih, toUInt8_eq (a := a) (by omega), toUInt8_eq (a := b) (by omega),
        toUInt8_eq (a := c) (by omega)]
      rfl

/-- Numbers that make up octets are the ones that these are cut into. -/
theorem eq_sextets_of_pack? {ns : List Nat} {octets : Bytes} (hns : ∀ n ∈ ns, n < 64)
    (h : pack? ns = some octets) : ns = sextets octets := by
  induction ns using pack?.induct generalizing octets with
  | case1 =>
      cases h
      rfl
  | case2 n => cases h
  | case3 a b hspare =>
      rw [pack?, if_pos hspare] at h
      cases h
      simp only [List.forall_mem_cons] at hns
      rw [sextets, Utf8.toNat_toUInt8 _ (by omega)]
      simp only [List.cons.injEq, and_true]
      omega
  | case4 a b hspare =>
      rw [pack?, if_neg hspare] at h
      cases h
  | case5 a b c hspare =>
      rw [pack?, if_pos hspare] at h
      cases h
      simp only [List.forall_mem_cons] at hns
      rw [sextets, Utf8.toNat_toUInt8 _ (by omega), Utf8.toNat_toUInt8 _ (by omega)]
      simp only [List.cons.injEq, and_true]
      omega
  | case6 a b c hspare =>
      rw [pack?, if_neg hspare] at h
      cases h
  | case7 a b c d rest ih =>
      rw [pack?, Option.map_eq_some_iff] at h
      rcases h with ⟨more, hmore, rfl⟩
      simp only [List.forall_mem_cons] at hns
      rw [sextets, Utf8.toNat_toUInt8 _ (by omega), Utf8.toNat_toUInt8 _ (by omega),
        Utf8.toNat_toUInt8 _ (by omega), ← ih hns.2.2.2.2 hmore]
      simp only [List.cons.injEq, and_true]
      omega

/-- Numbers make up a row of octets if and only if they are the ones that it is cut into. -/
theorem pack?_eq_some_iff {ns : List Nat} (hns : ∀ n ∈ ns, n < 64) (octets : Bytes) :
    pack? ns = some octets ↔ ns = sextets octets :=
  ⟨eq_sextets_of_pack? hns, fun h => h ▸ pack?_sextets octets⟩

/-! ## Spellings -/

theorem length_encode (octets : Bytes) : (encode octets).length = (sextets octets).length := by
  rw [encode_eq_map, List.length_map]

/-- A text is read as octets if and only if it is their spelling. -/
theorem decode_eq_ok_iff (bs octets : Bytes) : decode bs = .ok octets ↔ bs = encode octets := by
  refine ⟨fun h => ?_, ?_⟩
  · rw [decode] at h
    split at h
    · cases h
    split at h
    · cases h
    rename_i ns hnumbers
    rcases (numbers_eq_ok_iff _ 0 bs ns).mp hnumbers with ⟨hbs, hns⟩
    split at h
    · cases h
    split at h
    · rename_i made hpack
      cases h
      rw [hbs, (pack?_eq_some_iff hns octets).mp hpack, encode_eq_map]
    · cases h
  · rintro rfl
    -- There is no letter too many, be it a stray one or not.
    have hlength := length_sextets octets
    have hstray : strayEnd? (encode octets) = none := by
      rw [strayEnd?, if_neg (by rwa [length_encode])]
    have hnumbers (last : Nat) : numbers last 0 (encode octets) = .ok (sextets octets) :=
      (numbers_eq_ok_iff last 0 _ _).mpr ⟨encode_eq_map octets, sextets_lt octets⟩
    rw [decode, hstray]
    simp only [hnumbers, if_neg hlength, pack?_sextets]

/-- No spelling has a dot in it. -/
theorem dot_not_mem_encode (octets : Bytes) : (46 : UInt8) ∉ encode octets := by
  intro hdot
  rw [encode_eq_map] at hdot
  rcases List.mem_map.mp hdot with ⟨n, hn, hletter⟩
  have hnumber := number?_letter (sextets_lt octets n hn)
  rw [hletter] at hnumber
  exact Option.some_ne_none n hnumber.symm

end Base64

end Gateway
