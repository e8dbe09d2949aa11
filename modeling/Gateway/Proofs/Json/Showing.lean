import Gateway.Json.Record
import Gateway.Proofs.Json.Pacing

/-!
# What a Record Has Read Is There

A record is read straight from text, so nothing of the text is left but the record. What the record
says was in the text can be checked against the value that the text stands for. Record and value go
through the same members side by side: where the record has a field, the field is read at the pace
of its value, and where it has none, the member is passed over. What holds of the draft and of the
members so far holds in the end, if no step breaks it (`Record.readMembers_keeps`).

This is put to use for a field that has to be there and that has a place of its own in the draft.
What the record has got in that place, the value shows under the name of the field. Nothing is said
of arrays, which show no names.

## Main definitions

* `RecordField.Spares`: A field keeps its hands off a part of the draft.
* `Record.Keeps`: What is said of a draft and of members stays true.
* `Record.Shows`: The members show what the draft holds in one place.
* `Record.Requires`: A field that has to be there, with a place of its own.

## Theorems

* `Record.readMembers_first`: What a record makes of the first of some members.
* `Record.readMembers_keeps`, `Record.ofText_keeps`: Record and value, side by side.
* `Record.shown_of_ofText`: What was read of a field, the value shows.
-/

namespace Gateway

namespace Json

/-! ## Members -/

theorem lookup?_insert_self (key : String) (v : Json) (members : List (String × Json)) :
    lookup? key (insert key v members) = some v := by
  induction members with
  | nil => simp only [insert, lookup?, List.find?_cons, beq_self_eq_true, Option.map_some]
  | cons m members ih =>
      rcases m with ⟨k, w⟩
      rw [insert]
      split
      · simp only [lookup?, List.find?_cons, beq_self_eq_true, Option.map_some]
      split
      · simp only [lookup?, List.find?_cons, beq_self_eq_true, Option.map_some]
      · rename_i hother
        rw [lookup?, List.find?_cons, beq_false_of_ne (Ne.symm hother)]
        exact ih

theorem lookup?_insert_of_ne {name key : String} (hne : key ≠ name) (v : Json)
    (members : List (String × Json)) :
    lookup? name (insert key v members) = lookup? name members := by
  have hkey : (key == name) = false := beq_false_of_ne hne
  induction members with
  | nil => simp only [insert, lookup?, List.find?_cons, hkey, List.find?_nil]
  | cons m members ih =>
      rcases m with ⟨k, w⟩
      rw [insert]
      split
      · simp only [lookup?, List.find?_cons, hkey]
      split
      · rename_i hsame
        subst hsame
        simp only [lookup?, List.find?_cons, hkey]
      · simp only [lookup?, List.find?_cons] at ih ⊢
        split
        · rfl
        · exact ih

/-! ## Fields -/

section Fields

variable {σ β γ : Type}

/-- A field leaves the octets that a value leaves which is read from the same ones, and leaves a
    part of the draft as it is, whether it is there or not. -/
structure RecordField.Spares (f : RecordField σ) (part : σ → γ) : Prop where
  read {fuel depth : Nat} {bs left rest : Bytes} {draft next : σ} {v : Json}
    (hread : f.ofText depth draft bs = .ok (next, left))
    (hvalue : readValue fuel depth bs = .ok (v, rest)) : left = rest ∧ part next = part draft
  missing {draft next : σ} (h : f.missing draft = some next) : part next = part draft

/-- What a field made of a draft is what its kind read, put in its place. -/
theorem RecordField.of_ofText_ok {name : String} {k : Kind β} {get : σ → Option β}
    {set : σ → β → σ} {depth : Nat} {draft next : σ} {bs left : Bytes}
    (h : (RecordField.of name k get set).ofText depth draft bs = .ok (next, left)) :
    ∃ x, k.ofText depth bs = .ok (x, left) ∧ next = set draft x := by
  rcases exists_of_map_eq_ok h with ⟨found, hread, hfound⟩
  cases hfound
  exact ⟨found.1, hread, rfl⟩

theorem spares_of {name : String} {k : Kind β} {get : σ → Option β} {set : σ → β → σ}
    {part : σ → γ} (hk : k.Paced) (hpart : ∀ draft x, part (set draft x) = part draft) :
    (RecordField.of name k get set).Spares part where
  read hread hvalue := by
    rcases RecordField.of_ofText_ok hread with ⟨x, hx, rfl⟩
    exact ⟨hk hx hvalue, hpart _ x⟩
  missing {draft next} h := by
    replace h : (if (get draft).isSome then some draft else k.missing.map (set draft))
        = some next := h
    split at h
    · exact congrArg part (Option.some.inj h).symm
    · rcases Option.map_eq_some_iff.mp h with ⟨x, -, rfl⟩
      exact hpart draft x

theorem spares_checked {name : String} {k : Kind β} {noted : σ → List String}
    {note : σ → String → σ} {part : σ → γ} (hk : k.Paced)
    (hpart : ∀ draft name, part (note draft name) = part draft) :
    (RecordField.checked name k noted note).Spares part where
  read hread hvalue := by
    rcases exists_of_map_eq_ok hread with ⟨found, hx, hfound⟩
    cases hfound
    exact ⟨hk hx hvalue, hpart _ name⟩
  missing {draft next} h := by
    replace h : (if name ∈ noted draft then some draft else k.missing.map fun _ => draft)
        = some next := h
    split at h
    · exact congrArg part (Option.some.inj h).symm
    · rcases Option.map_eq_some_iff.mp h with ⟨x, -, rfl⟩
      rfl

end Fields

/-! ## Records -/

namespace Record

variable {σ α β : Type} {r : Record σ α}

/-- Where members are read into a draft, the first is a key with what the record makes of its value,
    and behind it stands a brace or a comma. -/
theorem readMembers_first {fuel depth : Nat} {draft final : σ} {bs left : Bytes}
    (h : r.readMembers depth (fuel + 1) draft bs = .ok (final, left)) :
    ∃ key after next behind c more, KeyAt bs key after
      ∧ ((∃ f, r.field? key = some f ∧ f.isSet draft = false
          ∧ f.ofText depth draft after = .ok (next, behind))
        ∨ r.field? key = none ∧ skipValue (fuelFor after) after = .ok behind ∧ next = draft)
      ∧ skipBlanks behind = c :: more
      ∧ (c = ascii '}' ∧ final = next ∧ left = more
        ∨ c = ascii ',' ∧ r.readMembers depth fuel next more = .ok (final, left)) := by
  rw [readMembers] at h
  split at h
  · cases h
  rename_i q inside hquote
  split at h
  · cases h
  rename_i hq
  obtain rfl := eq_of_not_bne hq
  split at h
  · cases h
  rename_i key colon hkey
  dsimp only at h
  split at h
  · cases h
  rename_i next behind hstep
  split at h
  · cases h
  rename_i c more hend
  -- What stands behind the value does not depend on what was made of it.
  have hlast : c = ascii '}' ∧ final = next ∧ left = more
      ∨ c = ascii ',' ∧ r.readMembers depth fuel next more = .ok (final, left) := by
    split at h
    · rename_i hbrace
      cases h
      exact Or.inl ⟨eq_of_beq hbrace, rfl, rfl⟩
    split at h
    · rename_i hcomma
      exact Or.inr ⟨eq_of_beq hcomma, h⟩
    · cases h
  split at hstep
  · rename_i f hfield
    split at hstep
    · cases hstep
    rename_i hunset
    split at hstep
    · cases hstep
    rename_i after hcolon
    exact ⟨key, after, next, behind, c, more, ⟨inside, colon, hquote, hkey, hcolon⟩,
      Or.inl ⟨f, hfield, Bool.eq_false_iff.mpr hunset, hstep⟩, hend, hlast⟩
  · rename_i hnone
    split at hstep
    · cases hstep
    rename_i after hcolon
    rcases exists_of_map_eq_ok hstep with ⟨behind', hskip, hfound⟩
    cases hfound
    exact ⟨key, after, draft, behind, c, more, ⟨inside, colon, hquote, hkey, hcolon⟩,
      Or.inr ⟨hnone, hskip, rfl⟩, hend, hlast⟩

/-- What is said of a draft and of the members of a value stays true from one member to the next,
    where the record and the value are read from the same octets. -/
structure Keeps (r : Record σ α) (P : σ → List (String × Json) → Prop) : Prop where
  /-- A member that is a field is read as fast as its value, and what is said stays true. -/
  field {key : String} {f : RecordField σ} {fuel depth : Nat} {bs left rest : Bytes}
    {draft next : σ} {v : Json} {members : List (String × Json)} (hfield : r.field? key = some f)
    (hread : f.ofText depth draft bs = .ok (next, left))
    (hvalue : readValue fuel depth bs = .ok (v, rest)) (h : P draft members) :
    left = rest ∧ P next (insert key v members)
  /-- A member that is none changes the value alone. -/
  other {key : String} {draft : σ} {members : List (String × Json)} (v : Json)
    (hnone : r.field? key = none) (h : P draft members) : P draft (insert key v members)

/-- Record and value go through the members side by side, and come to their end together. -/
theorem readMembers_keeps {P : σ → List (String × Json) → Prop} (keeps : r.Keeps P)
    {fuel more depth : Nat} {draft final : σ} {members : List (String × Json)}
    {bs left rest : Bytes} {v : Json}
    (hrecord : r.readMembers depth fuel draft bs = .ok (final, left))
    (hvalue : Json.readMembers more depth members bs = .ok (v, rest)) (h : P draft members) :
    left = rest ∧ ∃ members, v = object members ∧ P final members := by
  induction fuel generalizing more draft members bs with
  | zero => cases hrecord
  | succ fuel ih =>
      cases more with
      | zero => cases hvalue
      | succ more =>
          rcases readMembers_first hrecord with
            ⟨key, after, next, behind, c, ahead, hkey, hstep, hend, hlast⟩
          rcases Json.readMembers_first hvalue with
            ⟨key', after', w, behind', c', ahead', hkey', hw, hend', hlast'⟩
          obtain ⟨rfl, rfl⟩ := hkey.unique hkey'
          -- The value of the first member ends at one place for both.
          have hnext : behind = behind' ∧ P next (insert key w members) := by
            rcases hstep with ⟨f, hfield, -, hread⟩ | ⟨hnone, hskip, rfl⟩
            · exact keeps.field hfield hread hw h
            · exact ⟨(eq_of_readValue_skipValue hw hskip).symm, keeps.other w hnone h⟩
          obtain ⟨rfl, hP⟩ := hnext
          obtain ⟨rfl, rfl⟩ := List.cons.inj (hend.symm.trans hend')
          rcases hlast with ⟨rfl, rfl, rfl⟩ | ⟨rfl, hrest⟩
          · rcases hlast' with ⟨-, rfl, rfl⟩ | ⟨hcomma, -⟩
            · exact ⟨rfl, _, rfl, hP⟩
            · exact absurd hcomma (by decide)
          · rcases hlast' with ⟨hbrace, -⟩ | ⟨-, hrest'⟩
            · exact absurd hbrace (by decide)
            · exact ih hrest hrest' hP

theorem complete_ok {β : Type} {reading : Reading β} {x : β} (h : complete reading = .ok x) :
    ∃ rest, reading = .ok (x, rest) := by
  rw [complete.eq_def] at h
  split at h
  · cases h
  · rename_i y rest
    split at h
    · cases h
      exact ⟨rest, rfl⟩
    · cases h

theorem eq_of_conclude {record : Option α} {bs left : Bytes} {x : α}
    (h : conclude record bs = .ok (x, left)) : record = some x := by
  rw [conclude.eq_def] at h
  split at h
  · cases h
    rfl
  · cases h

/-- A record is read from an object or from an array. -/
theorem read_ok {depth : Nat} {bs left : Bytes} {x : α}
    (h : r.read (depth + 1) bs = .ok (x, left)) :
    (∃ inside c more, skipBlanks bs = ascii '{' :: inside ∧ skipBlanks inside = c :: more
      ∧ (c = ascii '}' ∧ r.finish? r.empty = some x
        ∨ c ≠ ascii '}' ∧ ∃ draft after,
          r.readMembers depth inside.length r.empty inside = .ok (draft, after)
            ∧ r.finish? draft = some x))
      ∨ ∃ inside, skipBlanks bs = ascii '[' :: inside := by
  rw [read.eq_def] at h
  split at h
  · cases h
  · rename_i b inside depth' hblanks hdepth
    obtain rfl := Nat.succ.inj hdepth
    split at h
    · rename_i hbrace
      obtain rfl := eq_of_beq hbrace
      refine Or.inl ⟨inside, ?_⟩
      split at h
      · cases h
      rename_i c more hinside
      refine ⟨c, more, hblanks, hinside, ?_⟩
      split at h
      · rename_i hclose
        exact Or.inl ⟨eq_of_beq hclose, eq_of_conclude h⟩
      · rename_i hclose
        refine Or.inr ⟨fun hc => hclose (beq_iff_eq.mpr hc), ?_⟩
        split at h
        · cases h
        · rename_i draft after hdraft
          exact ⟨draft, after, hdraft, eq_of_conclude h⟩
    · split at h
      · rename_i hbracket
        obtain rfl := eq_of_beq hbracket
        exact Or.inr ⟨inside, hblanks⟩
      · cases h
  · rename_i hdepth
    cases hdepth

/-- What is said of the empty draft and of no members is true of the draft and the members in the
    end, if a text is read both as a record and as a value, and is no array. -/
theorem ofText_keeps {P : σ → List (String × Json) → Prop} (keeps : r.Keeps P)
    (hempty : P r.empty []) {bs : Bytes} {x : α} {v : Json} (hrecord : r.ofText bs = .ok x)
    (hvalue : parse bs = .ok v) (harray : (skipBlanks bs).head? ≠ some (ascii '[')) :
    ∃ draft members, v = object members ∧ P draft members ∧ r.finish? draft = some x := by
  rcases complete_ok hrecord with ⟨left, hread⟩
  rcases complete_ok hvalue with ⟨rest, hw⟩
  rcases read_ok hread with ⟨inside, c, more, hbrace, hinside, hobject⟩ | ⟨inside, hbracket⟩
  · rcases exists_fuel hbrace hw with ⟨n, hw⟩
    rcases readValue_brace hw with ⟨d, c', more', hd, hinside', hmembers⟩
    obtain rfl : 126 = d := Nat.succ.inj hd
    obtain ⟨rfl, rfl⟩ := List.cons.inj (hinside.symm.trans hinside')
    rcases hobject with ⟨rfl, hfinish⟩ | ⟨hne, draft, after, hdraft, hfinish⟩
    · rcases hmembers with ⟨-, rfl, -⟩ | ⟨hne, -⟩
      · exact ⟨r.empty, [], rfl, hempty, hfinish⟩
      · exact absurd rfl hne
    · rcases hmembers with ⟨hclose, -, -⟩ | ⟨-, hmembers⟩
      · exact absurd hclose hne
      · rcases readMembers_keeps keeps hdraft hmembers hempty with ⟨-, members, rfl, hP⟩
        exact ⟨draft, members, rfl, hP, hfinish⟩
  · exact absurd (by rw [hbracket]; rfl) harray

/-! ## Fields That Are Shown -/

theorem of_field?_eq_some {key : String} {f : RecordField σ} (h : r.field? key = some f) :
    f ∈ r.fields ∧ f.name = key := by
  rw [field?] at h
  have hname := List.find?_some h
  exact ⟨List.mem_of_find?_eq_some h, eq_of_beq hname⟩

/-- What a draft holds in one place, the members show. -/
def Shows (name : String) (k : Kind β) (get : σ → Option β) (draft : σ)
    (members : List (String × Json)) : Prop :=
  ∀ x, get draft = some x → ∃ v, lookup? name members = some v ∧ k.ofValue? v = some x

/-- A record has a field that has to be there, and no other field touches its place. -/
structure Requires (r : Record σ α) (name : String) (k : Kind β) (get : σ → Option β)
    (set : σ → β → σ) : Prop where
  traced : k.Traced
  missing : k.missing = none
  empty : get r.empty = none
  get_set (draft : σ) (x : β) : get (set draft x) = some x
  mem : .of name k get set ∈ r.fields
  others (f : RecordField σ) (hf : f ∈ r.fields) :
    f = .of name k get set ∨ f.name ≠ name ∧ f.Spares get

section Requires

variable {name : String} {k : Kind β} {get : σ → Option β} {set : σ → β → σ}
  (requires : r.Requires name k get set)
include requires

theorem keeps_shows : r.Keeps (Shows name k get) where
  field {key f fuel depth bs left rest draft next v members} hfield hread hvalue h := by
    rcases of_field?_eq_some hfield with ⟨hf, hkey⟩
    rcases requires.others f hf with rfl | ⟨hne, hspares⟩
    · rcases RecordField.of_ofText_ok hread with ⟨y, hy, rfl⟩
      rcases requires.traced hy hvalue with ⟨hrest, hv⟩
      refine ⟨hrest, fun x hx => ⟨v, ?_, ?_⟩⟩
      · rw [← hkey]
        exact lookup?_insert_self name v members
      · rw [requires.get_set] at hx
        rw [hv, hx]
    · rcases hspares.read hread hvalue with ⟨hrest, hpart⟩
      refine ⟨hrest, fun x hx => ?_⟩
      rw [lookup?_insert_of_ne (hkey ▸ hne)]
      exact h x (hpart.symm.trans hx)
  other {key draft members} v hnone h := by
    have hne : key ≠ name := by
      rintro rfl
      exact List.find?_eq_none.mp hnone _ requires.mem (beq_self_eq_true _)
    intro x hx
    rw [lookup?_insert_of_ne hne]
    exact h x hx

/-- What is missing in the end is not looked for in the place of the field. -/
theorem get_of_foldlM_missing {fields : List (RecordField σ)} (hsub : fields ⊆ r.fields)
    {draft final : σ} (h : fields.foldlM (fun d f => f.missing d) draft = some final) :
    get final = get draft := by
  induction fields generalizing draft with
  | nil => exact congrArg get (Option.some.inj h).symm
  | cons f fields ih =>
      rcases Option.bind_eq_some_iff.mp h with ⟨next, hnext, hrest⟩
      have hfirst : get next = get draft := by
        rcases requires.others f (hsub List.mem_cons_self) with rfl | ⟨-, hspares⟩
        · replace hnext : (if (get draft).isSome then some draft else k.missing.map (set draft))
              = some next := hnext
          rw [requires.missing] at hnext
          split at hnext
          · exact congrArg get (Option.some.inj hnext).symm
          · cases hnext
        · exact hspares.missing hnext
      exact (ih (fun f hf => hsub (List.mem_cons_of_mem _ hf)) hrest).trans hfirst

/-- If a text is read both as a record and as a value, and is no array, then what the record has
    got in the place of a field is what the value shows under its name. -/
theorem shown_of_ofText {bs : Bytes} {x : α} {v : Json} (hrecord : r.ofText bs = .ok x)
    (hvalue : parse bs = .ok v) (harray : (skipBlanks bs).head? ≠ some (ascii '[')) :
    ∃ final, r.build final = some x
      ∧ ∀ y, get final = some y → ∃ w, v.field? name = some w ∧ k.ofValue? w = some y := by
  have hempty : Shows name k get r.empty [] := fun y hy =>
    absurd (requires.empty.symm.trans hy) (Option.some_ne_none y).symm
  rcases ofText_keeps (keeps_shows requires) hempty hrecord hvalue harray with
    ⟨draft, members, rfl, hshows, hfinish⟩
  rcases Option.bind_eq_some_iff.mp hfinish with ⟨final, hfinal, hbuild⟩
  refine ⟨final, hbuild, fun y hy => hshows y ?_⟩
  rw [← get_of_foldlM_missing requires (List.Subset.refl _) hfinal]
  exact hy

end Requires

end Record

end Json

end Gateway
