import Mathlib.Data.List.Pairwise
import Gateway.Proofs.Json.Reading
import Gateway.Proofs.Json.Showing

/-!
# Members in Any Order

An object keeps its members sorted by key, so a record that is read from a value meets them in
another order than the one that reads the text. It makes no difference as long as the fields keep
to themselves: two of them that are `Apart` may be read in either order, and a member that is no
field changes nothing. So the members may be sorted, and of those that are no fields all but the
last of a key may be dropped, and the same record comes out (`takeMembers_ofMembers`). What may not
be there twice is a field.

## Main definitions

* `RecordField.Apart`: Two fields keep to themselves.
* `Record.Orderly`: All fields of a record keep to themselves.
* `Record.Differ`: Two members are not one and the same field.

## Theorems

* `RecordField.apart_of`: Fields with places of their own are apart.
* `take_take`, `take_takeMembers`: A member may wait for others.
* `takeMembers_insert`: It may also go to its place among them.
* `takeMembers_ofMembers`: Members may be put in order.
* `pairwise_differ_of_count`: Where no field is there twice, all members differ.
-/

namespace Gateway

namespace Json

variable {σ α β γ : Type}

/-! ## Fields -/

/-- Two fields keep to themselves: they may be read in either order, and neither sets the other. -/
structure RecordField.Apart (f g : RecordField σ) : Prop where
  swap (draft : σ) (v w : Json) :
    (f.ofValue? draft v).bind (g.ofValue? · w) = (g.ofValue? draft w).bind (f.ofValue? · v)
  left {draft next : σ} {v : Json} (h : f.ofValue? draft v = some next) :
    g.isSet next = g.isSet draft
  right {draft next : σ} {v : Json} (h : g.ofValue? draft v = some next) :
    f.isSet next = f.isSet draft

theorem RecordField.Apart.symm {f g : RecordField σ} (h : f.Apart g) : g.Apart f :=
  ⟨fun draft v w => (h.swap draft w v).symm, h.right, h.left⟩

instance : Std.Symm (@RecordField.Apart σ) :=
  ⟨fun _ _ h => h.symm⟩

/-- Fields with places of their own are apart. -/
theorem RecordField.apart_of {name name' : String} {k : Kind β} {k' : Kind γ} {get : σ → Option β}
    {get' : σ → Option γ} {set : σ → β → σ} {set' : σ → γ → σ}
    (hswap : ∀ draft x y, set' (set draft x) y = set (set' draft y) x)
    (hleft : ∀ draft x, get' (set draft x) = get' draft)
    (hright : ∀ draft y, get (set' draft y) = get draft) :
    (RecordField.of name k get set).Apart (RecordField.of name' k' get' set') where
  swap draft v w := by
    simp only [RecordField.of]
    cases k.ofValue? v with
    | none => cases k'.ofValue? w <;> rfl
    | some x =>
        cases k'.ofValue? w with
        | none => rfl
        | some y => exact congrArg some (hswap draft x y)
  left h := by
    rcases Option.map_eq_some_iff.mp h with ⟨x, -, rfl⟩
    exact congrArg Option.isSome (hleft _ x)
  right h := by
    rcases Option.map_eq_some_iff.mp h with ⟨y, -, rfl⟩
    exact congrArg Option.isSome (hright _ y)

/-- A field that has been read is set. -/
theorem RecordField.isSet_of {name : String} {k : Kind β} {get : σ → Option β} {set : σ → β → σ}
    {draft next : σ} {v : Json} (h : (RecordField.of name k get set).ofValue? draft v = some next)
    (hget : ∀ draft x, get (set draft x) = some x) :
    (RecordField.of name k get set).isSet next = true := by
  rcases Option.map_eq_some_iff.mp h with ⟨x, -, rfl⟩
  exact congrArg Option.isSome (hget draft x)

namespace Record

/-- The fields of a record keep to themselves, and each is set by what is read of it and by nothing
    else. -/
structure Orderly (r : Record σ α) : Prop where
  fresh {f : RecordField σ} (hf : f ∈ r.fields) : f.isSet r.empty = false
  sets {f : RecordField σ} {draft next : σ} {v : Json} (hf : f ∈ r.fields)
    (h : f.ofValue? draft v = some next) : f.isSet next = true
  apart : r.fields.Pairwise RecordField.Apart

/-- Two members are not one and the same field. -/
def Differ (r : Record σ α) (m m' : String × Json) : Prop :=
  m.1 = m'.1 → r.field? m.1 = none

/-- What a record makes of one member of an object. -/
def take (r : Record σ α) (draft : σ) (m : String × Json) : Option σ :=
  match r.field? m.1 with
  | some f => f.ofValue? draft m.2
  | none => some draft

variable {r : Record σ α}

theorem takeMembers_cons (draft : σ) (m : String × Json) (members : List (String × Json)) :
    r.takeMembers draft (m :: members) = (r.take draft m).bind (r.takeMembers · members) := by
  rcases m with ⟨key, v⟩
  rw [takeMembers, take]
  cases r.field? key with
  | none => rfl
  | some f => rfl

theorem take_of_field?_eq_none {m : String × Json} (draft : σ) (h : r.field? m.1 = none) :
    r.take draft m = some draft := by
  rw [take, h]

/-- Two fields with different keys are apart. -/
theorem apart_of_ne (orderly : r.Orderly) {key key' : String} {f g : RecordField σ}
    (hf : r.field? key = some f) (hg : r.field? key' = some g) (hne : key ≠ key') : f.Apart g := by
  rcases of_field?_eq_some hf with ⟨hmem, rfl⟩
  rcases of_field?_eq_some hg with ⟨hmem', rfl⟩
  exact orderly.apart.forall hmem hmem' fun heq => hne (congrArg RecordField.name heq)

/-! ## Members -/

section Members

variable (orderly : r.Orderly)
include orderly

theorem take_take {m m' : String × Json} (h : r.Differ m m') (draft : σ) :
    (r.take draft m).bind (r.take · m') = (r.take draft m').bind (r.take · m) := by
  cases hf : r.field? m.1 with
  | none => simp only [take_of_field?_eq_none _ hf, Option.bind_some, Option.bind_fun_some]
  | some f =>
      cases hg : r.field? m'.1 with
      | none => simp only [take_of_field?_eq_none _ hg, Option.bind_some, Option.bind_fun_some]
      | some g =>
          have hne : m.1 ≠ m'.1 := fun heq => Option.some_ne_none f (hf.symm.trans (h heq))
          simp only [take, hf, hg]
          exact (apart_of_ne orderly hf hg hne).swap draft m.2 m'.2

/-- A member may wait until others are read from which it differs. -/
theorem take_takeMembers {m : String × Json} {members : List (String × Json)}
    (h : ∀ m' ∈ members, r.Differ m m') (draft : σ) :
    (r.take draft m).bind (r.takeMembers · members)
      = (r.takeMembers draft members).bind (r.take · m) := by
  induction members generalizing draft with
  | nil => simp only [takeMembers, Option.bind_some, Option.bind_fun_some]
  | cons m' members ih =>
      have hrest := ih fun u hu => h u (List.mem_cons_of_mem m' hu)
      calc (r.take draft m).bind (r.takeMembers · (m' :: members))
          = ((r.take draft m).bind (r.take · m')).bind (r.takeMembers · members) := by
            simp only [takeMembers_cons, Option.bind_assoc]
        _ = (r.take draft m').bind fun next => (r.take next m).bind (r.takeMembers · members) := by
            rw [take_take orderly (h m' List.mem_cons_self), Option.bind_assoc]
        _ = (r.takeMembers draft (m' :: members)).bind (r.take · m) := by
            simp only [hrest, takeMembers_cons, Option.bind_assoc]

/-- A member that goes to its place among others is read as if it came after them. One that it
    replaces was no field. -/
theorem takeMembers_insert {m : String × Json} {members : List (String × Json)}
    (h : ∀ m' ∈ members, r.Differ m m') (draft : σ) :
    r.takeMembers draft (insert m.1 m.2 members)
      = (r.takeMembers draft members).bind (r.take · m) := by
  induction members generalizing draft with
  | nil => simp only [insert, takeMembers_cons, takeMembers, Option.bind_some, Option.bind_fun_some]
  | cons first members ih =>
      rw [insert]
      split
      · rw [takeMembers_cons, take_takeMembers orderly h]
      split
      · -- A member of the same key is replaced, which only one that is no field may be.
        rename_i hsame
        have hnone := h first List.mem_cons_self hsame
        have hfirst : r.field? first.1 = none := hsame ▸ hnone
        simp only [takeMembers_cons, take_of_field?_eq_none _ hnone,
          take_of_field?_eq_none _ hfirst, Option.bind_some, Option.bind_fun_some]
      · simp only [takeMembers_cons, ih fun u hu => h u (List.mem_cons_of_mem first hu),
          Option.bind_assoc]

/-- Members may be put in order one after another, if no two of them are the same field. -/
theorem takeMembers_foldl_insert {members acc : List (String × Json)}
    (hdiffer : members.Pairwise r.Differ) (h : ∀ m ∈ members, ∀ m' ∈ acc, r.Differ m m')
    (draft : σ) :
    r.takeMembers draft (members.foldl (fun acc m => insert m.1 m.2 acc) acc)
      = (r.takeMembers draft acc).bind (r.takeMembers · members) := by
  induction members generalizing acc with
  | nil => simp only [List.foldl_nil, takeMembers, Option.bind_fun_some]
  | cons m members ih =>
      rcases List.pairwise_cons.mp hdiffer with ⟨hfirst, hrest⟩
      have hmore : ∀ u ∈ members, ∀ m' ∈ insert m.1 m.2 acc, r.Differ u m' := by
        intro u hu m' hm'
        rcases mem_insert m.1 m.2 acc m' hm' with rfl | hm'
        · intro heq
          exact heq ▸ hfirst u hu heq.symm
        · exact h u (List.mem_cons_of_mem m hu) m' hm'
      rw [List.foldl_cons, ih hrest hmore,
        takeMembers_insert orderly (h m List.mem_cons_self)]
      simp only [takeMembers_cons, Option.bind_assoc]

/-- From an object the same is read as from the members that it was put together from. -/
theorem takeMembers_ofMembers {members : List (String × Json)}
    (hdiffer : members.Pairwise r.Differ) (draft : σ) :
    r.takeMembers draft (members.foldl (fun acc m => insert m.1 m.2 acc) [])
      = r.takeMembers draft members := by
  rw [takeMembers_foldl_insert orderly hdiffer fun _ _ _ hm' => absurd hm' List.not_mem_nil]
  rfl

end Members

/-- Where no field is there twice, all members differ. -/
theorem pairwise_differ_of_count {members : List (String × Json)}
    (h : ∀ f ∈ r.fields, (members.map Prod.fst).count f.name ≤ 1) :
    members.Pairwise r.Differ := by
  induction members with
  | nil => exact List.Pairwise.nil
  | cons m members ih =>
      refine List.pairwise_cons.mpr ⟨fun m' hm' hsame => ?_, ih fun f hf => ?_⟩
      · cases hfield : r.field? m.1 with
        | none => rfl
        | some f =>
            rcases of_field?_eq_some hfield with ⟨hf, hname⟩
            have hcount := h f hf
            have hpos := List.count_pos_iff.mpr (List.mem_map_of_mem (f := Prod.fst) hm')
            rw [List.map_cons, hname, List.count_cons_self, hsame] at hcount
            omega
      · have hcount := h f hf
        rw [List.map_cons, List.count_cons] at hcount
        omega

end Record

end Json

end Gateway
