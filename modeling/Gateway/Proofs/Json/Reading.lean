import Gateway.Json.Reader

/-!
# What Comes Out of Reading

A value that was read is fit to be written and read again: the members of its objects are sorted by
key, and it is nested no deeper than there were brackets to open. The one holds because members are
only ever added by `insert`, which keeps them sorted, and the other because every bracket takes one
off what is left.

Reading is taken apart once for each of the three readers (`readValue_ok`, `readItems_ok`,
`readMembers_ok`), by what they were given by the others. The induction is on the fuel that they
share.

## Main definitions

* `Within`: Well-formed, and nested no deeper than a bound.

## Theorems

* `insert_sorted`: Adding a member keeps members sorted.
* `readValue_ok`, `readItems_ok`, `readMembers_ok`: Where what was read comes from.
* `within_of_reading`, `within_of_parse`: What was read is well-formed and not too deep.
-/

namespace Gateway

namespace Json

/-! ## Members in Order -/

theorem mem_insert (key : String) (v : Json) (members : List (String × Json)) (m : String × Json)
    (h : m ∈ insert key v members) : m = (key, v) ∨ m ∈ members := by
  induction members with
  | nil => exact Or.inl (List.mem_singleton.mp h)
  | cons first rest ih =>
      rcases first with ⟨k, w⟩
      rw [insert] at h
      by_cases hless : key < k
      · rw [if_pos hless] at h
        exact List.mem_cons.mp h
      rw [if_neg hless] at h
      by_cases hsame : key = k
      · rw [if_pos hsame] at h
        rcases List.mem_cons.mp h with h | h
        · exact Or.inl h
        · exact Or.inr (List.mem_cons_of_mem _ h)
      · rw [if_neg hsame] at h
        rcases List.mem_cons.mp h with h | h
        · exact Or.inr (List.mem_cons.mpr (Or.inl h))
        · exact (ih h).imp id (List.mem_cons_of_mem _)

/-- Adding a member keeps members sorted. -/
theorem insert_sorted (key : String) (v : Json) (members : List (String × Json))
    (h : members.Pairwise fun a b => a.1 < b.1) :
    (insert key v members).Pairwise fun a b => a.1 < b.1 := by
  induction members with
  | nil => exact List.pairwise_singleton _ _
  | cons first rest ih =>
      rcases first with ⟨k, w⟩
      rcases List.pairwise_cons.mp h with ⟨hfirst, hrest⟩
      rw [insert]
      by_cases hless : key < k
      · rw [if_pos hless]
        refine List.pairwise_cons.mpr ⟨fun m hm => ?_, h⟩
        rcases List.mem_cons.mp hm with rfl | hm
        · exact hless
        · exact String.lt_trans hless (hfirst m hm)
      rw [if_neg hless]
      by_cases hsame : key = k
      · rw [if_pos hsame, hsame]
        exact List.pairwise_cons.mpr ⟨hfirst, hrest⟩
      · -- The key is behind the first one, and so it is wherever it goes among the others.
        have hmore : k < key := String.not_le.mp fun hc =>
          hsame (String.le_antisymm hc (String.not_lt.mp hless))
        rw [if_neg hsame]
        refine List.pairwise_cons.mpr ⟨fun m hm => ?_, ih hrest⟩
        rcases mem_insert key v rest m hm with rfl | hm
        · exact hmore
        · exact hfirst m hm

/-! ## Values Within a Bound -/

/-- Well-formed, and nested no deeper than a bound. -/
def Within (depth : Nat) (v : Json) : Prop :=
  v.WellFormed ∧ v.nesting ≤ depth

theorem within_array (depth : Nat) (items : List Json) (h : ∀ v ∈ items, Within depth v) :
    Within (depth + 1) (array items) := by
  have hitems : WellFormedItems items ∧ nestingItems items ≤ depth := by
    induction items with
    | nil => exact ⟨trivial, Nat.zero_le _⟩
    | cons v rest ih =>
        rcases h v List.mem_cons_self with ⟨hw, hdepth⟩
        rcases ih fun u hu => h u (List.mem_cons_of_mem v hu) with ⟨hws, hdepths⟩
        exact ⟨⟨hw, hws⟩, Nat.max_le.mpr ⟨hdepth, hdepths⟩⟩
  exact ⟨hitems.1, Nat.succ_le_succ hitems.2⟩

theorem within_object (depth : Nat) (members : List (String × Json))
    (hsorted : members.Pairwise fun a b => a.1 < b.1) (h : ∀ m ∈ members, Within depth m.2) :
    Within (depth + 1) (object members) := by
  have hmembers : WellFormedMembers members ∧ nestingMembers members ≤ depth := by
    clear hsorted
    induction members with
    | nil => exact ⟨trivial, Nat.zero_le _⟩
    | cons m rest ih =>
        rcases h m List.mem_cons_self with ⟨hw, hdepth⟩
        rcases ih fun u hu => h u (List.mem_cons_of_mem m hu) with ⟨hws, hdepths⟩
        exact ⟨⟨hw, hws⟩, Nat.max_le.mpr ⟨hdepth, hdepths⟩⟩
  exact ⟨⟨hsorted, hmembers.1⟩, Nat.succ_le_succ hmembers.2⟩

/-! ## Where Values Come From -/

theorem eq_of_expect (word octets rest : Bytes) (u v : Json)
    (h : (expect word octets).map (u, ·) = .ok (v, rest)) : v = u := by
  cases hword : expect word octets with
  | error e =>
      rw [hword] at h
      cases h
  | ok after =>
      rw [hword] at h
      cases h
      rfl

theorem readValue_ok (fuel depth : Nat) (bs rest : Bytes) (v : Json)
    (h : readValue (fuel + 1) depth bs = .ok (v, rest)) :
    (v.WellFormed ∧ v.nesting = 0)
      ∨ ∃ d, depth = d + 1 ∧ (v = array [] ∨ v = object []
        ∨ (∃ bs, readItems fuel d [] bs = .ok (v, rest))
        ∨ ∃ bs, readMembers fuel d [] bs = .ok (v, rest)) := by
  rw [readValue] at h
  split at h
  · cases h
  -- The words, a string and a number are nested in nothing.
  split at h
  · exact Or.inl (eq_of_expect _ _ _ _ _ h ▸ ⟨trivial, rfl⟩)
  split at h
  · exact Or.inl (eq_of_expect _ _ _ _ _ h ▸ ⟨trivial, rfl⟩)
  split at h
  · exact Or.inl (eq_of_expect _ _ _ _ _ h ▸ ⟨trivial, rfl⟩)
  split at h
  · split at h
    · cases h
    · cases h
      exact Or.inl ⟨trivial, rfl⟩
  split at h
  · split at h
    · cases h
    · cases h
      exact Or.inl ⟨trivial, rfl⟩
  -- A bracket takes one off the depth, and what follows is empty or read by another reader.
  refine Or.inr ?_
  split at h
  · split at h
    · cases h
    · rename_i d
      refine ⟨d, rfl, ?_⟩
      split at h
      · cases h
      split at h
      · cases h
        exact Or.inl rfl
      · exact Or.inr (Or.inr (Or.inl ⟨_, h⟩))
  split at h
  · split at h
    · cases h
    · rename_i d
      refine ⟨d, rfl, ?_⟩
      split at h
      · cases h
      split at h
      · cases h
        exact Or.inr (Or.inl rfl)
      · exact Or.inr (Or.inr (Or.inr ⟨_, h⟩))
  · cases h

theorem readItems_ok (fuel depth : Nat) (acc : List Json) (bs rest : Bytes) (w : Json)
    (h : readItems (fuel + 1) depth acc bs = .ok (w, rest)) :
    ∃ v bs', readValue fuel depth bs = .ok (v, bs')
      ∧ (w = array (v :: acc).reverse
        ∨ ∃ more, readItems fuel depth (v :: acc) more = .ok (w, rest)) := by
  rw [readItems] at h
  split at h
  · cases h
  · rename_i v bs' hread
    refine ⟨v, bs', hread, ?_⟩
    split at h
    · cases h
    split at h
    · cases h
      exact Or.inl rfl
    split at h
    · exact Or.inr ⟨_, h⟩
    · cases h

theorem readMembers_ok (fuel depth : Nat) (acc : List (String × Json)) (bs rest : Bytes)
    (w : Json) (h : readMembers (fuel + 1) depth acc bs = .ok (w, rest)) :
    ∃ key v bs' bs'', readValue fuel depth bs' = .ok (v, bs'')
      ∧ (w = object (insert key v acc)
        ∨ ∃ more, readMembers fuel depth (insert key v acc) more = .ok (w, rest)) := by
  rw [readMembers] at h
  split at h
  · cases h
  split at h
  · cases h
  split at h
  · cases h
  · rename_i key _ _
    split at h
    · cases h
    · rename_i bs' _
      split at h
      · cases h
      · rename_i v bs'' hread
        refine ⟨key, v, bs', bs'', hread, ?_⟩
        split at h
        · cases h
        split at h
        · cases h
          exact Or.inl rfl
        split at h
        · exact Or.inr ⟨_, h⟩
        · cases h

/-! ## What Was Read -/

/-- What was read is well-formed, and nested no deeper than there were brackets to open. Items and
    members are read one bracket further in, so what they make up is nested one deeper. -/
theorem within_of_reading (fuel : Nat) :
    (∀ depth bs rest v, readValue fuel depth bs = .ok (v, rest) → Within depth v)
      ∧ (∀ depth acc bs rest v, readItems fuel depth acc bs = .ok (v, rest) →
        (∀ u ∈ acc, Within depth u) → Within (depth + 1) v)
      ∧ (∀ depth (acc : List (String × Json)) bs rest v,
        readMembers fuel depth acc bs = .ok (v, rest) →
        (acc.Pairwise fun a b => a.1 < b.1) → (∀ m ∈ acc, Within depth m.2) →
        Within (depth + 1) v) := by
  induction fuel with
  | zero =>
      refine ⟨fun depth bs rest v h => ?_, fun depth acc bs rest v h _ => ?_,
        fun depth acc bs rest v h _ _ => ?_⟩
      · cases h
      · cases h
      · cases h
  | succ fuel ih =>
      rcases ih with ⟨hvalue, hitems, hmembers⟩
      refine ⟨fun depth bs rest v h => ?_, fun depth acc bs rest w h hacc => ?_,
        fun depth acc bs rest w h hsorted hacc => ?_⟩
      -- A value is nested in nothing, or it is what the others read one bracket further in.
      · rcases readValue_ok fuel depth bs rest v h with ⟨hw, hflat⟩ | ⟨d, rfl, hv⟩
        · exact ⟨hw, by omega⟩
        rcases hv with rfl | rfl | ⟨inner, hread⟩ | ⟨inner, hread⟩
        · exact within_array d [] fun _ hmem => absurd hmem List.not_mem_nil
        · exact within_object d [] List.Pairwise.nil fun _ hmem => absurd hmem List.not_mem_nil
        · exact hitems d [] inner rest v hread fun _ hmem => absurd hmem List.not_mem_nil
        · exact hmembers d [] inner rest v hread List.Pairwise.nil
            fun _ hmem => absurd hmem List.not_mem_nil
      -- Items keep the bound, be they the last or not.
      · rcases readItems_ok fuel depth acc bs rest w h with ⟨v, bs', hread, hw⟩
        have hv := hvalue depth bs bs' v hread
        have hmore : ∀ u ∈ v :: acc, Within depth u := fun u hu => by
          rcases List.mem_cons.mp hu with rfl | hu
          · exact hv
          · exact hacc u hu
        rcases hw with rfl | ⟨more, hrest⟩
        · exact within_array depth _ fun u hu => hmore u (List.mem_reverse.mp hu)
        · exact hitems depth (v :: acc) more rest w hrest hmore
      · rcases readMembers_ok fuel depth acc bs rest w h with ⟨key, v, bs', bs'', hread, hw⟩
        have hv := hvalue depth bs' bs'' v hread
        have hmore : ∀ m ∈ insert key v acc, Within depth m.2 := fun m hm => by
          rcases mem_insert key v acc m hm with rfl | hm
          · exact hv
          · exact hacc m hm
        -- And so do members, which `insert` keeps sorted besides.
        have hkeys := insert_sorted key v acc hsorted
        rcases hw with rfl | ⟨more, hrest⟩
        · exact within_object depth _ hkeys hmore
        · exact hmembers depth _ more rest w hrest hkeys hmore

/-- What a whole text was read as is well-formed, and not nested too deep. -/
theorem within_of_parse (bs : Bytes) (v : Json) (h : parse bs = .ok v) : Within maxNesting v := by
  rw [parse] at h
  cases hread : readValue (fuelFor bs) maxNesting bs with
  | error e =>
      rw [hread] at h
      cases h
  | ok found =>
      rcases found with ⟨w, rest⟩
      rw [hread, complete] at h
      split at h
      · cases h
        exact (within_of_reading _).1 maxNesting bs rest v hread
      · cases h

end Json

end Gateway
