import Gateway.Metrics

/-!
# Counting Once More

A tally is a list of what was counted, each thing with how often. Counting a thing once more finds
its entry or makes one, and what anybody can see of that is this: the thing was counted once more
and nothing else was, and the sum over all entries is one more. What calls and requests are counted
under is told by these two facts and never by the list.

No thing has two entries, however often it was counted, so the sum over the entries is the sum over
the things.

## Main definitions

* `Tally.total`: How often anything was counted.

## Theorems

* `Tally.count_bump`: A thing is counted once more, and nothing else.
* `Tally.total_bump`: Something is counted once more.
* `Tally.nodup_bump`: No thing has two entries.
-/

namespace Gateway

namespace Tally

variable {α : Type} [DecidableEq α]

/-- How often anything was counted. -/
def total : Tally α → Nat
  | [] => 0
  | (_, n) :: rest => n + total rest

theorem count_nil (a : α) : count [] a = 0 := rfl

theorem count_cons (b a : α) (n : Nat) (rest : Tally α) :
    count ((b, n) :: rest) a = if b = a then n else count rest a := by
  unfold count
  rw [List.find?_cons]
  by_cases h : b = a
  · rw [if_pos h, beq_iff_eq.mpr h]
  · rw [if_neg h, beq_eq_false_iff_ne.mpr h]

/-- A thing is counted once more, and nothing else. -/
theorem count_bump (a b : α) (t : Tally α) :
    count (bump a t) b = count t b + if a = b then 1 else 0 := by
  induction t with
  | nil => simp only [bump, count_cons, count_nil, Nat.zero_add]
  | cons e rest ih =>
      rcases e with ⟨c, n⟩
      rw [bump]
      by_cases hc : c = a
      · -- The entry is found here, and it is that of `a`.
        subst hc
        rw [if_pos rfl, count_cons, count_cons]
        split <;> rfl
      · rw [if_neg hc, count_cons, count_cons, ih]
        by_cases hb : c = b
        · rw [if_pos hb, if_pos hb, if_neg fun hab => hc (hb.trans hab.symm), Nat.add_zero]
        · rw [if_neg hb, if_neg hb]

theorem total_bump (a : α) (t : Tally α) : total (bump a t) = total t + 1 := by
  induction t with
  | nil => rfl
  | cons e rest ih =>
      rcases e with ⟨c, n⟩
      rw [bump]
      split
      · simp only [total]
        omega
      · simp only [total, ih]
        omega

theorem mem_keys_bump (a b : α) (t : Tally α) (h : b ∈ (bump a t).map Prod.fst) :
    b = a ∨ b ∈ t.map Prod.fst := by
  induction t with
  | nil => exact Or.inl (List.mem_singleton.mp h)
  | cons e rest ih =>
      rcases e with ⟨c, n⟩
      rw [bump] at h
      split at h
      · exact Or.inr h
      · rcases List.mem_cons.mp h with h | h
        · exact Or.inr (List.mem_cons.mpr (Or.inl h))
        · exact (ih h).imp id (List.mem_cons_of_mem _)

/-- No thing has two entries. -/
theorem nodup_bump (a : α) (t : Tally α) (h : (t.map Prod.fst).Nodup) :
    ((bump a t).map Prod.fst).Nodup := by
  induction t with
  | nil => exact List.pairwise_singleton _ a
  | cons e rest ih =>
      rcases e with ⟨c, n⟩
      rcases List.nodup_cons.mp h with ⟨hfirst, hrest⟩
      rw [bump]
      split
      · exact h
      · -- What has an entry afterwards had one before, or is what is counted.
        rename_i hne
        refine List.nodup_cons.mpr ⟨fun hmem => ?_, ih hrest⟩
        rcases mem_keys_bump a c rest hmem with hc | hc
        · exact hne hc
        · exact hfirst hc

end Tally

end Gateway
