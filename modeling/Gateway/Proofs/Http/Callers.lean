import Gateway.Http.Api
import Gateway.Proofs.Rehearsal.Admission
import Gateway.Proofs.Text.Encoding
import Gateway.Proofs.Text.Trimming
import Gateway.Proofs.Token.Genuine

/-!
# Who Calls

A caller shows a token in a header. A header is octets, and where it is text is a matter of its own:
it has to be visible, and then it is the octets of that text. What follows the word `Bearer` and a
space is the token, without white space around it, and there is no other way to a token
(`Api.bearer?_eq_some_iff`). So a caller is let in by a genuine token and by nothing else, whatever
the header, the secret and the clock are, and whoever shows a token with another signature gets one
and the same answer, whatever they claim to be.

## Main definitions

* `Http.IsVisible`: A character that the value of a header may have to be text.
* `Api.Presents`: A request presents a token.

## Theorems

* `Http.visible?_eq_some_iff`: Which values are text.
* `Api.bearer?_eq_some_iff`: Which requests present a token.
* `Api.only_genuine_authenticate`: Who is let in, and what those are told whose token is not signed.
-/

namespace Gateway

namespace Http

/-- A character that may stand in a value that is text: a visible one, a space or a tabulator. -/
def IsVisible (c : Char) : Prop :=
  32 ≤ c.toNat ∧ c.toNat < 127 ∨ c.toNat = 9

instance (c : Char) : Decidable (IsVisible c) :=
  inferInstanceAs (Decidable (_ ∨ _))

theorem isVisible_of_all {cs : List Char} (h : cs.all (fun c => decide (IsVisible c)) = true) :
    ∀ c ∈ cs, IsVisible c := fun c hc =>
  of_decide_eq_true (List.all_eq_true.mp h c hc)

theorem encodeChar_of_lt {c : Char} (h : c.toNat < 128) :
    Utf8.encodeChar c = [c.toNat.toUInt8] := by
  rw [Utf8.encodeChar]
  exact if_pos h

theorem IsVisible.lt {c : Char} (h : IsVisible c) : c.toNat < 128 := by
  rcases h with h | h
  · exact Nat.lt_succ_of_lt h.2
  · omega

/-- Visible characters take one octet each. -/
theorem encodeChars_of_visible {cs : List Char} (h : ∀ c ∈ cs, IsVisible c) :
    Utf8.encodeChars cs = cs.map fun c => c.toNat.toUInt8 := by
  induction cs with
  | nil => rfl
  | cons c cs ih =>
      rw [Utf8.encodeChars, List.flatMap_cons, encodeChar_of_lt (h c List.mem_cons_self).lt]
      exact congrArg (c.toNat.toUInt8 :: ·) (ih fun d hd => h d (List.mem_cons_of_mem _ hd))

/-- Any octet is the number of a character. -/
theorem toNat_ofNat (b : UInt8) : (Char.ofNat b.toNat).toNat = b.toNat := by
  have hb : b.toNat < 256 := b.toNat_lt
  have hvalid : b.toNat.isValidChar := Or.inl (by omega)
  rw [Char.ofNat, dif_pos hvalid]
  rfl

/-- The value of a header is text if it is the octets of a visible one. -/
theorem visible?_eq_some_iff (v : Bytes) (s : String) :
    visible? v = some s ↔ v = utf8 s ∧ ∀ c ∈ s.toList, IsVisible c := by
  rw [visible?]
  refine ⟨fun h => ?_, fun ⟨hv, hvisible⟩ => ?_⟩
  · split at h
    · rename_i hall
      obtain rfl := Option.some.inj h
      have hvisible : ∀ c ∈ v.map fun b => Char.ofNat b.toNat, IsVisible c := by
        intro c hc
        rcases List.mem_map.mp hc with ⟨b, hb, rfl⟩
        have hoctet := List.all_eq_true.mp hall b hb
        rw [Bool.or_eq_true, Bool.and_eq_true, decide_eq_true_eq, decide_eq_true_eq,
          beq_iff_eq] at hoctet
        rw [IsVisible, toNat_ofNat]
        rcases hoctet with hoctet | rfl
        · exact Or.inl hoctet
        · exact Or.inr rfl
      rw [String.toList_ofList]
      refine ⟨?_, hvisible⟩
      rw [utf8, Utf8.encode, String.toList_ofList, encodeChars_of_visible hvisible, List.map_map]
      refine (List.map_id v).symm.trans (List.map_congr_left fun b _ => ?_)
      simp only [Function.comp_apply, toNat_ofNat]
      exact UInt8.ofNat_toNat.symm
    · cases h
  · rw [utf8, Utf8.encode, encodeChars_of_visible hvisible] at hv
    have hback (c : Char) (hc : c ∈ s.toList) : c.toNat.toUInt8.toNat = c.toNat :=
      Utf8.toNat_toUInt8 _ (Nat.lt_trans (hvisible c hc).lt (by decide))
    have hall : (v.all fun b => (32 ≤ b.toNat && b.toNat < 127) || b == 9) = true := by
      refine List.all_eq_true.mpr fun b hb => ?_
      rw [hv] at hb
      rcases List.mem_map.mp hb with ⟨c, hc, rfl⟩
      rw [Bool.or_eq_true, Bool.and_eq_true, decide_eq_true_eq, decide_eq_true_eq, beq_iff_eq,
        hback c hc]
      exact (hvisible c hc).imp id fun htab => by rw [htab]; rfl
    rw [if_pos hall, hv, List.map_map]
    have hsame : s.toList.map ((fun b => Char.ofNat b.toNat) ∘ fun c => c.toNat.toUInt8)
        = s.toList := by
      refine (List.map_congr_left fun c hc => ?_).trans (List.map_id s.toList)
      rw [Function.comp_apply, hback c hc]
      exact Char.ofNat_toNat c
    rw [hsame, String.ofList_toList]

end Http

/-- What follows some text is left when that is dropped. -/
theorem dropPrefix?_append (front rest : String) :
    ∃ left, (front ++ rest).dropPrefix? front = some left ∧ left.copy = rest := by
  cases h : (front ++ rest).dropPrefix? front with
  | none =>
      rw [String.dropPrefix?_eq_dropPrefix?_toSlice, String.Slice.dropPrefix?_eq_none_iff,
        String.startsWith_toSlice, String.startsWith_string_eq_false_iff,
        String.toList_append] at h
      exact absurd (List.prefix_append _ _) h
  | some left =>
      have happend := String.eq_append_of_dropPrefix?_string_eq_some h
      exact ⟨left, rfl, (String.append_right_inj front).mp happend.symm⟩

namespace Api

open Http

/-- A request presents a token: after `Bearer ` in its first authorization, which is visible, with
    nothing but white space around it. -/
def Presents (r : Http.Request) (token : String) : Prop :=
  ∃ rest, r.value? "authorization" = some (utf8 ("Bearer " ++ rest))
    ∧ (∀ c ∈ rest.toList, IsVisible c) ∧ Text.trim rest = token

theorem isVisible_of_mem_bearer : ∀ c ∈ "Bearer ".toList, IsVisible c :=
  isVisible_of_all (by decide)

/-- The token of a request is what it presents, unless that is nothing. -/
theorem bearer?_eq_some_iff (r : Http.Request) (token : String) :
    bearer? r = some token ↔ Presents r token ∧ token ≠ "" := by
  rw [bearer?]
  refine ⟨fun h => ?_, fun ⟨⟨rest, hvalue, hvisible, htrim⟩, hne⟩ => ?_⟩
  · rcases Option.bind_eq_some_iff.mp h with ⟨value, hvalue, h⟩
    rcases Option.bind_eq_some_iff.mp h with ⟨text, htext, h⟩
    rcases Option.bind_eq_some_iff.mp h with ⟨left, hleft, h⟩
    dsimp only at h
    split at h
    · cases h
    rename_i hempty
    obtain rfl := Option.some.inj h
    rcases (visible?_eq_some_iff value text).mp htext with ⟨rfl, hvisible⟩
    have happend := String.eq_append_of_dropPrefix?_string_eq_some hleft
    subst happend
    refine ⟨⟨left.copy, hvalue, fun c hc => hvisible c ?_, rfl⟩, fun hnil => hempty ?_⟩
    · rw [String.toList_append]
      exact List.mem_append_right _ hc
    · exact String.isEmpty_iff.mpr hnil
  · have htext : visible? (utf8 ("Bearer " ++ rest)) = some ("Bearer " ++ rest) := by
      refine (visible?_eq_some_iff _ _).mpr ⟨rfl, fun c hc => ?_⟩
      rw [String.toList_append] at hc
      rcases List.mem_append.mp hc with hc | hc
      · exact isVisible_of_mem_bearer c hc
      · exact hvisible c hc
    rcases dropPrefix?_append "Bearer " rest with ⟨left, hleft, rfl⟩
    refine Option.bind_eq_some_iff.mpr ⟨_, hvalue, Option.bind_eq_some_iff.mpr ⟨_, htext,
      Option.bind_eq_some_iff.mpr ⟨left, hleft, ?_⟩⟩⟩
    have hempty : (Text.trim left.copy).isEmpty ≠ true := fun h =>
      hne (htrim ▸ String.isEmpty_iff.mp h)
    exact (if_neg hempty).trans (congrArg some htrim)

/-- A caller is let in by a genuine token alone, and is then who the token says. Whoever shows a
    token that names the method of signing and has another signature than it should is told that,
    whatever its payload is. -/
theorem only_genuine_authenticate (secret : String) (now : Nat) (r : Http.Request) :
    (∀ claims, authenticate secret now r = .ok claims →
      ∃ token p, Presents r token ∧ Token.Divides token p ∧ Token.Genuine secret now p claims)
    ∧ ∀ token p method, Token.Divides token p → utf8 p.header = Base64.encode method →
      Token.header.ofText method = .ok "HS256" →
      utf8 p.signature
        ≠ Base64.encode (Hmac.sha256 (utf8 secret) (utf8 (p.header ++ "." ++ p.payload))) →
      (Presents r token →
          authenticate secret now r = .error (.unauthorized "Invalid token signature"))
        ∧ Token.verify secret now token = .error .signature := by
  refine ⟨fun claims h => ?_, fun token p method hparts hheader hmethod hforged => ?_⟩
  · rw [authenticate] at h
    split at h
    · cases h
    rename_i token hbearer
    split at h
    · rename_i hverify
      cases h
      rcases Token.genuine_of_verify hverify with ⟨p, hparts, hgenuine⟩
      exact ⟨token, p, ((bearer?_eq_some_iff r token).mp hbearer).1, hparts, hgenuine⟩
    · cases h
  · have hverify : Token.verify secret now token = .error .signature :=
      Token.verify_of_forged hparts hheader hmethod hforged
    refine ⟨fun hpresents => ?_, hverify⟩
    have hbearer := (bearer?_eq_some_iff r token).mpr ⟨hpresents, Token.ne_empty_of_divides hparts⟩
    rw [authenticate, hbearer]
    simp only [hverify]
    rfl

/-- The parts of a token whose payload is not the one that was signed for `ann`. -/
def swapped : Token.Parts :=
  ⟨"eyJhbGciOiJIUzI1NiJ9", "x", "2pQjC-jo2xz6iIAsGkrNBnbdYaTHiOCgDU0ZyM2y3Y8"⟩

/-- A request that shows such a token, with white space around it. -/
def swindle : Http.Request :=
  { Rehearsal.signed with headers := [("authorization",
    utf8 "Bearer  eyJhbGciOiJIUzI1NiJ9.x.2pQjC-jo2xz6iIAsGkrNBnbdYaTHiOCgDU0ZyM2y3Y8 ")] }

theorem only_genuine_authenticate_ann :
    (∃ token p, Presents Rehearsal.signed token ∧ Token.Divides token p
      ∧ Token.Genuine "k" 0 p ⟨"ann", none, "", 9⟩)
    ∧ authenticate "k" 0 swindle = .error (.unauthorized "Invalid token signature") := by
  refine ⟨(only_genuine_authenticate "k" 0 Rehearsal.signed).1 _ Rehearsal.authenticate_signed, ?_⟩
  have hheader : utf8 swapped.header = Base64.encode (utf8 "\x7b\"alg\":\"HS256\"\x7d") := by
    decide +kernel
  have hmethod : Token.header.ofText (utf8 "\x7b\"alg\":\"HS256\"\x7d") = .ok "HS256" := by
    decide +kernel
  have hforged : utf8 swapped.signature ≠ Base64.encode
      (Hmac.sha256 (utf8 "k") (utf8 (swapped.header ++ "." ++ swapped.payload))) := by
    decide +kernel
  have hparts : Token.Divides
      "eyJhbGciOiJIUzI1NiJ9.x.2pQjC-jo2xz6iIAsGkrNBnbdYaTHiOCgDU0ZyM2y3Y8" swapped := by
    rw [Token.Divides]
    decide +kernel
  refine ((only_genuine_authenticate "k" 0 swindle).2 _ swapped _ hparts hheader hmethod
    hforged).1 ?_
  exact ⟨" eyJhbGciOiJIUzI1NiJ9.x.2pQjC-jo2xz6iIAsGkrNBnbdYaTHiOCgDU0ZyM2y3Y8 ",
    by decide +kernel, isVisible_of_all (by decide +kernel), by decide +kernel⟩

end Api

end Gateway
