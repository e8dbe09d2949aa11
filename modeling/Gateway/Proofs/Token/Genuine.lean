import Gateway.Proofs.Json.Showing
import Gateway.Proofs.Token.Letters
import Gateway.Token.Claims

/-!
# Genuine Tokens

A token is checked in one order: its parts, its header, its signature, its claims and its expiry.
What a token that passes has been found to be is `Genuine`, and there is one field in it for each
check. The parts are those between the dots, of which there are two and no more: the header is
spelled in letters, so it has no dot in it (`divides_of_split?`).

What is read of a header and of a payload is said twice: it is what the record is read as, and if
the octets are a value at all, that value shows the same in its members. The second is the stronger
where it applies, as it does not depend on how records are read, but a record passes over members
that no value could have.

A token that is not signed is refused before its claims are looked at. So the refusal is one and the
same whatever they are, and tells nothing of them (`verify_of_forged`).

## Main definitions

* `Token.Divides`: A token is three parts with dots between them.
* `Token.NamesMethod`: A header names the one method of signing.
* `Token.Tells`: A payload tells some claims.
* `Token.Genuine`: What a token that is accepted is.

## Theorems

* `Token.split?_eq_some_iff`: Where a token is divided.
* `Token.genuine_of_verify`: A token that is accepted is genuine.
* `Token.verify_of_forged`: A token with another signature is refused for it.
-/

namespace Gateway

open Json Json.Kind

namespace Token

/-! ## Parts -/

/-- A token is three parts with dots between them, in which there are no other dots. -/
def Divides (token : String) (p : Parts) : Prop :=
  token.toList.splitOn '.' = [p.header.toList, p.payload.toList, p.signature.toList]

theorem splitLast?_eq_some_iff (cs front tail : List Char) :
    splitLast? cs = some (front, tail) ↔ cs = front ++ '.' :: tail ∧ '.' ∉ tail := by
  have hdrop (back : List Char) :
      back.drop (back.takeWhile (· != '.')).length = back.dropWhile (· != '.') := by
    have hback : back.takeWhile (· != '.') ++ back.dropWhile (· != '.') = back :=
      List.takeWhile_append_dropWhile
    exact (congrArg (List.drop _) hback.symm).trans List.drop_left
  rw [splitLast?]
  simp only [hdrop]
  refine ⟨fun h => ?_, fun ⟨hcs, htail⟩ => ?_⟩
  · split at h
    · cases h
    · rename_i c more hmore
      cases h
      have hdot := List.head?_dropWhile_not (· != '.') cs.reverse
      rw [hmore] at hdot
      have hcs : cs.reverse.takeWhile (· != '.') ++ cs.reverse.dropWhile (· != '.')
          = cs.reverse := List.takeWhile_append_dropWhile
      rw [hmore, bne_eq_false_iff_eq.mp hdot] at hcs
      refine ⟨?_, fun hmem => ?_⟩
      · have hturned := congrArg List.reverse hcs
        rw [List.reverse_append, List.reverse_cons, List.append_assoc,
          List.reverse_reverse] at hturned
        exact hturned.symm
      · exact absurd (List.mem_takeWhile_imp (List.mem_reverse.mp hmem)) (by decide)
  · have hback : cs.reverse = tail.reverse ++ '.' :: front.reverse := by
      rw [hcs, List.reverse_append, List.reverse_cons, List.append_assoc, List.singleton_append]
    have hkept : ∀ c ∈ tail.reverse, (c != '.') = true := fun c hc =>
      bne_iff_ne.mpr fun hdot => htail (hdot ▸ List.mem_reverse.mp hc)
    have hnone : ('.' :: front.reverse).takeWhile (· != '.') = [] := rfl
    have hall : ('.' :: front.reverse).dropWhile (· != '.') = '.' :: front.reverse := rfl
    rw [hback, List.dropWhile_append_of_pos hkept, List.takeWhile_append_of_pos hkept, hnone, hall]
    simp only [List.append_nil, List.reverse_reverse]

/-- A token is divided at its last two dots. -/
theorem split?_eq_some_iff (token : String) (p : Parts) :
    split? token = some p
      ↔ token.toList = p.header.toList ++ '.' :: (p.payload.toList ++ '.' :: p.signature.toList)
        ∧ '.' ∉ p.payload.toList ∧ '.' ∉ p.signature.toList := by
  rw [split?]
  refine ⟨fun h => ?_, fun ⟨htoken, hpayload, hsignature⟩ => ?_⟩
  · rcases Option.bind_eq_some_iff.mp h with ⟨⟨message, signature⟩, hlast, h⟩
    rcases Option.bind_eq_some_iff.mp h with ⟨⟨header, payload⟩, hfirst, h⟩
    cases h
    rcases (splitLast?_eq_some_iff _ _ _).mp hlast with ⟨htoken, hsignature⟩
    rcases (splitLast?_eq_some_iff _ _ _).mp hfirst with ⟨hmessage, hpayload⟩
    simp only [String.toList_ofList]
    refine ⟨?_, hpayload, hsignature⟩
    rw [htoken, hmessage, List.append_assoc, List.cons_append]
  · have hlast : splitLast? token.toList
        = some (p.header.toList ++ '.' :: p.payload.toList, p.signature.toList) :=
      (splitLast?_eq_some_iff _ _ _).mpr
        ⟨by rw [htoken, List.append_assoc, List.cons_append], hsignature⟩
    have hfirst := (splitLast?_eq_some_iff _ p.header.toList p.payload.toList).mpr ⟨rfl, hpayload⟩
    rw [hlast]
    refine (congrArg (Option.bind · _) hfirst).trans ?_
    simp only [Option.bind_some, String.ofList_toList]
    rfl

theorem not_mem_of_mem_splitOn {c : Char} {cs part : List Char} (h : part ∈ cs.splitOn c) :
    c ∉ part := by
  induction cs generalizing part with
  | nil =>
      rw [List.splitOn_nil, List.mem_singleton] at h
      exact h ▸ List.not_mem_nil
  | cons d cs ih =>
      rw [List.splitOn_cons_eq_if_modifyHead] at h
      split at h
      · rcases List.mem_cons.mp h with rfl | h
        · exact List.not_mem_nil
        · exact ih h
      · rename_i hd
        cases hparts : cs.splitOn c with
        | nil => exact absurd hparts (List.splitOn_ne_nil c cs)
        | cons first parts =>
            rw [hparts] at h ih
            rcases List.mem_cons.mp h with rfl | h
            · intro hmem
              rcases List.mem_cons.mp hmem with rfl | hmem
              · exact hd (beq_self_eq_true _)
              · exact ih List.mem_cons_self hmem
            · exact ih (List.mem_cons_of_mem _ h)

/-- Between its last two dots a token is divided, if there are no others. -/
theorem divides_of_split? {token : String} {p : Parts} (h : split? token = some p)
    (hheader : '.' ∉ p.header.toList) : Divides token p := by
  rcases (split?_eq_some_iff token p).mp h with ⟨htoken, hpayload, hsignature⟩
  rw [Divides, htoken, List.splitOn_append_cons_self_of_not_mem hheader,
    List.splitOn_append_cons_self_of_not_mem hpayload, List.splitOn_eq_singleton hsignature]

theorem split?_of_divides {token : String} {p : Parts} (h : Divides token p) :
    split? token = some p := by
  have hjoin : ['.'].intercalate (token.toList.splitOn '.') = token.toList :=
    List.intercalate_splitOn '.'
  have hparts : ∀ part ∈ [p.header.toList, p.payload.toList, p.signature.toList], '.' ∉ part :=
    fun part hpart => not_mem_of_mem_splitOn (h ▸ hpart)
  rw [h, List.intercalate_cons_cons, List.intercalate_cons_cons, List.intercalate_singleton,
    List.append_assoc, List.append_assoc, List.singleton_append, List.singleton_append] at hjoin
  exact (split?_eq_some_iff token p).mpr ⟨hjoin.symm,
    hparts _ (List.mem_cons_of_mem _ List.mem_cons_self),
    hparts _ (List.mem_cons_of_mem _ (List.mem_cons_of_mem _ List.mem_cons_self))⟩

theorem ne_empty_of_divides {token : String} {p : Parts} (h : Divides token p) : token ≠ "" := by
  rintro rfl
  have hlength : ("".toList.splitOn '.').length = 3 := congrArg List.length h
  exact absurd hlength (by decide)

/-! ## Headers -/

/-- A member that is only checked leaves the method of signing as it is. -/
theorem spares_alg {β : Type} (name : String) {k : Kind β} (hk : k.Paced) :
    (checked name k).Spares (·.alg) :=
  spares_checked hk.optional.placed fun _ _ => rfl

/-- A key is a value first. -/
theorem paced_key : Key.kind.Paced := by
  intro fuel depth bs left rest x v hread hvalue
  rw [Key.kind] at hread
  dsimp only at hread
  split at hread
  · cases hread
  · rename_i hfirst
    split at hread
    · cases hread
      exact eq_of_readValue hfirst hvalue
    · cases hread
  · cases hread

theorem requires_alg : header.Requires "alg" (Key.oneOf algorithms false) (·.alg)
    fun d v => { d with alg := some v } where
  traced := traced_choice _
  missing := rfl
  empty := rfl
  get_set _ _ := rfl
  mem := List.mem_cons_of_mem _ List.mem_cons_self
  others f hf := by
    simp only [header, List.mem_cons, List.not_mem_nil, or_false] at hf
    rcases hf with rfl | rfl | rfl | rfl | rfl | rfl | rfl | rfl | rfl | rfl
    · exact Or.inr ⟨by decide, spares_alg _ traced_text.paced⟩
    · exact Or.inl rfl
    · exact Or.inr ⟨by decide, spares_alg _ traced_text.paced⟩
    · exact Or.inr ⟨by decide, spares_alg _ traced_text.paced⟩
    · exact Or.inr ⟨by decide, spares_alg _ paced_key⟩
    · exact Or.inr ⟨by decide, spares_alg _ traced_text.paced⟩
    · exact Or.inr ⟨by decide, spares_alg _ traced_text.paced⟩
    · exact Or.inr ⟨by decide, spares_alg _ paced_texts⟩
    · exact Or.inr ⟨by decide, spares_alg _ traced_text.paced⟩
    · exact Or.inr ⟨by decide, spares_alg _ traced_text.paced⟩

/-- The octets of a header name the one method of signing. -/
structure NamesMethod (octets : Bytes) : Prop where
  /-- They are read as a header that does. -/
  read : header.ofText octets = .ok "HS256"
  /-- If they are a value, and no array, then it has a member for the method, which is its name or
      an object with nothing but the name. -/
  shown : ∀ v, parse octets = .ok v → isArray octets = false →
    ∃ w, v.field? "alg" = some w ∧ (w = string "HS256" ∨ w = object [("HS256", null)])

/-- Some claims are what the octets of a payload tell. -/
structure Tells (octets : Bytes) (claims : Claims) : Prop where
  /-- They are read as these claims. -/
  read : Claims.record.ofText octets = .ok claims
  /-- If they are a value, it has a string for the subject and a number for the expiry. -/
  shown : ∀ v, parse octets = .ok v → v.field? "sub" = some (string claims.sub)
    ∧ ∃ fits, v.field? "exp" = some (number (.integer claims.exp fits))

theorem head?_of_isArray {octets : Bytes} (h : isArray octets = false) :
    (skipBlanks octets).head? ≠ some (ascii '[') :=
  ne_of_beq_false h

theorem namesMethod_of_read {octets : Bytes} (h : header.ofText octets = .ok "HS256") :
    NamesMethod octets := by
  refine ⟨h, fun v hv harray => ?_⟩
  rcases Record.shown_of_ofText requires_alg h hv (head?_of_isArray harray) with
    ⟨draft, hbuild, hshown⟩
  rcases hshown "HS256" hbuild with ⟨w, hw, hchoice⟩
  rcases choice?_eq_some hchoice with ⟨s, hs, hshape⟩
  have hname := List.find?_some hs
  rw [← eq_of_beq hname] at hshape
  exact ⟨w, hw, hshape⟩

/-! ## Claims -/

theorem requires_sub : Claims.record.Requires "sub" .text (·.sub)
    fun d v => { d with sub := some v } where
  traced := traced_text
  missing := rfl
  empty := rfl
  get_set _ _ := rfl
  mem := List.mem_cons_self
  others f hf := by
    simp only [Claims.record, List.mem_cons, List.not_mem_nil, or_false] at hf
    rcases hf with rfl | rfl | rfl | rfl
    · exact Or.inl rfl
    · exact Or.inr ⟨by decide, spares_of traced_text.paced.optional fun _ _ => rfl⟩
    · exact Or.inr ⟨by decide, spares_of traced_textOrEmpty.paced fun _ _ => rfl⟩
    · exact Or.inr ⟨by decide, spares_of traced_word.paced fun _ _ => rfl⟩

theorem requires_exp : Claims.record.Requires "exp" .word (·.exp)
    fun d v => { d with exp := some v } where
  traced := traced_word
  missing := rfl
  empty := rfl
  get_set _ _ := rfl
  mem := List.mem_of_getElem? (i := 3) rfl
  others f hf := by
    simp only [Claims.record, List.mem_cons, List.not_mem_nil, or_false] at hf
    rcases hf with rfl | rfl | rfl | rfl
    · exact Or.inr ⟨by decide, spares_of traced_text.paced fun _ _ => rfl⟩
    · exact Or.inr ⟨by decide, spares_of traced_text.paced.optional fun _ _ => rfl⟩
    · exact Or.inr ⟨by decide, spares_of traced_textOrEmpty.paced fun _ _ => rfl⟩
    · exact Or.inl rfl

theorem build_ok {draft : Claims.Draft} {claims : Claims}
    (h : Claims.record.build draft = some claims) :
    draft.sub = some claims.sub ∧ draft.exp = some claims.exp := by
  rcases Option.bind_eq_some_iff.mp h with ⟨sub, hsub, h⟩
  rcases Option.bind_eq_some_iff.mp h with ⟨email, -, h⟩
  rcases Option.bind_eq_some_iff.mp h with ⟨role, -, h⟩
  rcases Option.bind_eq_some_iff.mp h with ⟨exp, hexp, h⟩
  cases h
  exact ⟨hsub, hexp⟩

theorem tells_of_read {octets : Bytes} {claims : Claims}
    (h : Claims.record.ofText octets = .ok claims) (harray : isArray octets = false) :
    Tells octets claims := by
  refine ⟨h, fun v hv => ⟨?_, ?_⟩⟩
  · rcases Record.shown_of_ofText requires_sub h hv (head?_of_isArray harray) with
      ⟨draft, hbuild, hshown⟩
    rcases hshown claims.sub (build_ok hbuild).1 with ⟨w, hw, htext⟩
    rw [hw, text?_eq_some htext]
  · rcases Record.shown_of_ofText requires_exp h hv (head?_of_isArray harray) with
      ⟨draft, hbuild, hshown⟩
    rcases hshown claims.exp (build_ok hbuild).2 with ⟨w, hw, hword⟩
    rcases word?_eq_some hword with ⟨fits, rfl⟩
    exact ⟨fits, hw⟩

/-! ## Checks -/

/-- What a token of some parts is that is accepted for some claims at a time. -/
structure Genuine (secret : String) (now : Nat) (p : Parts) (claims : Claims) : Prop where
  /-- The header is the letters of octets that name the one method of signing. -/
  header : ∃ octets, utf8 p.header = Base64.encode octets ∧ NamesMethod octets
  /-- The last part is the letters of the signature of the first two and the dot between them. -/
  signature : utf8 p.signature
    = Base64.encode (Hmac.sha256 (utf8 secret) (utf8 (p.header ++ "." ++ p.payload)))
  /-- The payload is the letters of octets that tell the claims. -/
  payload : ∃ octets, utf8 p.payload = Base64.encode octets ∧ Tells octets claims
  /-- The claims expired no more than a minute ago. -/
  fresh : now ≤ claims.exp + 60

theorem octets_eq_ok_iff (part : String) (bs : Bytes) :
    octets part = .ok bs ↔ utf8 part = Base64.encode bs := by
  rw [octets, ← Base64.decode_eq_ok_iff]
  cases Base64.decode (utf8 part) with
  | error fault =>
      refine ⟨fun h => ?_, fun h => ?_⟩
      · cases h
      · cases h
  | ok found => simp only [Except.ok.injEq]

theorem readPart_eq_ok_iff {σ α : Type} (r : Record σ α) (bs : Bytes) (x : α) :
    readPart r bs = .ok x ↔ r.ofText bs = .ok x := by
  rw [readPart]
  cases r.ofText bs with
  | error fault =>
      refine ⟨fun h => ?_, fun h => ?_⟩
      · cases h
      · cases h
  | ok found => simp only [Except.ok.injEq]

/-- What is spelled in letters has no dot in it. -/
theorem dot_not_mem_of_letters {part : String} {bs : Bytes} (h : utf8 part = Base64.encode bs) :
    '.' ∉ part.toList := by
  intro hdot
  have hmem : (46 : UInt8) ∈ utf8 part := List.mem_flatMap.mpr ⟨'.', hdot, by decide⟩
  exact Base64.dot_not_mem_encode bs (h ▸ hmem)

theorem readClaims_ok {bs : Bytes} {claims : Claims} {aud : Option Json}
    (h : readClaims bs = .ok (claims, aud)) : Tells bs claims := by
  rw [readClaims] at h
  rcases exists_of_bind_eq_ok h with ⟨claims', hclaims, h⟩
  dsimp only at h
  split at h
  · cases h
  rename_i harray
  rcases exists_of_bind_eq_ok h with ⟨limits, -, h⟩
  cases h
  exact tells_of_read ((readPart_eq_ok_iff _ bs claims).mp hclaims) (Bool.eq_false_iff.mpr harray)

/-- A token that is accepted is genuine. -/
theorem genuine_of_verify {secret token : String} {now : Nat} {claims : Claims}
    (h : verify secret now token = .ok claims) :
    ∃ p, Divides token p ∧ Genuine secret now p claims := by
  rw [verify] at h
  split at h
  · cases h
  rename_i p hparts
  rcases exists_of_bind_eq_ok h with ⟨alg, halg, h⟩
  rcases exists_of_bind_eq_ok halg with ⟨method, hmethod, hread⟩
  dsimp only at h
  split at h
  · cases h
  rename_i haccepted
  split at h
  · cases h
  rename_i hsigned
  rcases exists_of_bind_eq_ok h with ⟨⟨claims', aud⟩, hclaims, h⟩
  rcases exists_of_bind_eq_ok hclaims with ⟨told, htold, hread'⟩
  dsimp only at h
  split at h
  · cases h
  rename_i hfresh
  split at h
  · cases h
  cases h
  have hheader := (octets_eq_ok_iff p.header method).mp hmethod
  rw [Decidable.not_not.mp haccepted, readPart_eq_ok_iff] at hread
  refine ⟨p, divides_of_split? hparts ?_, ⟨method, hheader, namesMethod_of_read hread⟩,
    Decidable.not_not.mp hsigned, ⟨told, (octets_eq_ok_iff p.payload told).mp htold,
      readClaims_ok hread'⟩, ?_⟩
  · exact dot_not_mem_of_letters hheader
  · rw [leeway] at hfresh
    omega

/-- A token that names the method of signing and has another signature than it should is refused for
    that, whatever its payload is. -/
theorem verify_of_forged {secret token : String} {now : Nat} {p : Parts} {method : Bytes}
    (hparts : Divides token p) (hheader : utf8 p.header = Base64.encode method)
    (hmethod : header.ofText method = .ok "HS256")
    (hforged : utf8 p.signature
      ≠ Base64.encode (Hmac.sha256 (utf8 secret) (utf8 (p.header ++ "." ++ p.payload)))) :
    verify secret now token = .error .signature := by
  have halg : octets p.header >>= readPart header = .ok accepted := by
    rw [(octets_eq_ok_iff p.header method).mpr hheader]
    exact (readPart_eq_ok_iff header method accepted).mpr hmethod
  rw [verify, split?_of_divides hparts]
  dsimp only
  rw [halg]
  exact if_pos hforged

end Token

end Gateway
