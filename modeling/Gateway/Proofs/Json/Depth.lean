import Gateway.Proofs.Json.RoundTrip

/-!
# How Deep a Text May Be Nested

Writing knows no limit and reading does, so there are texts that were written and are not read. The
limit decides nothing else: with more brackets to open, a text that was read before is read as the
same value (`Robust`). So what the reader makes of a text that goes too deep can be seen
from what it would make of it under a limit that is large enough, which is the value that the text
was written for. Had it been read under the lower limit, it would be that value, and no value that
was read goes deeper than the limit.

## Main definitions

* `Robust`: What is read under a limit is read under a higher one.

## Theorems

* `robust_of_fuel`: With more brackets to open, the same is read.
* `parse_write_members`: A text that stays within the limit is read.
* `exists_fault_of_nesting`: A text that goes deeper is not.
-/

namespace Gateway

namespace Json

/-- What one unit of fuel less reads under a limit, it reads under a higher one too. -/
structure Robust (fuel : Nat) : Prop where
  value {depth more : Nat} {bs : Bytes} {found : Json × Bytes} (hle : depth ≤ more)
    (h : readValue fuel depth bs = .ok found) : readValue fuel more bs = .ok found
  items {depth more : Nat} {acc : List Json} {bs : Bytes} {found : Json × Bytes}
    (hle : depth ≤ more) (h : readItems fuel depth acc bs = .ok found) :
    readItems fuel more acc bs = .ok found
  members {depth more : Nat} {acc : List (String × Json)} {bs : Bytes} {found : Json × Bytes}
    (hle : depth ≤ more) (h : readMembers fuel depth acc bs = .ok found) :
    readMembers fuel more acc bs = .ok found

section Robust

variable {fuel depth more : Nat} {bs : Bytes} {found : Json × Bytes} (robust : Robust fuel)
  (hle : depth ≤ more)
include robust hle

/-- Only behind a bracket does the limit matter, and there one less is left of either. -/
theorem readValue_of_more (h : readValue (fuel + 1) depth bs = .ok found) :
    readValue (fuel + 1) more bs = .ok found := by
  rw [readValue] at h ⊢
  split at h
  · cases h
  · split at h
    · rwa [if_pos ‹_›]
    rw [if_neg ‹_›]
    split at h
    · rwa [if_pos ‹_›]
    rw [if_neg ‹_›]
    split at h
    · rwa [if_pos ‹_›]
    rw [if_neg ‹_›]
    split at h
    · rwa [if_pos ‹_›]
    rw [if_neg ‹_›]
    split at h
    · rwa [if_pos ‹_›]
    rw [if_neg ‹_›]
    cases depth with
    | zero =>
        split at h
        · cases h
        split at h
        · cases h
        · cases h
    | succ depth =>
        obtain ⟨more, rfl⟩ : ∃ n, more = n + 1 := ⟨more - 1, by omega⟩
        split at h
        · rw [if_pos ‹_›]
          simp only at h ⊢
          split at h
          · cases h
          · split at h
            · rwa [if_pos ‹_›]
            · rw [if_neg ‹_›]
              exact robust.items (by omega) h
        rw [if_neg ‹_›]
        split at h
        · rw [if_pos ‹_›]
          simp only at h ⊢
          split at h
          · cases h
          · split at h
            · rwa [if_pos ‹_›]
            · rw [if_neg ‹_›]
              exact robust.members (by omega) h
        · cases h

theorem readItems_of_more {acc : List Json} (h : readItems (fuel + 1) depth acc bs = .ok found) :
    readItems (fuel + 1) more acc bs = .ok found := by
  rw [readItems] at h ⊢
  split at h
  · cases h
  · rename_i v bs hvalue
    rw [robust.value hle hvalue]
    simp only
    split at h
    · cases h
    · split at h
      · rwa [if_pos ‹_›]
      rw [if_neg ‹_›]
      split at h
      · rw [if_pos ‹_›]
        exact robust.items hle h
      · cases h

theorem readMembers_of_more {acc : List (String × Json)}
    (h : readMembers (fuel + 1) depth acc bs = .ok found) :
    readMembers (fuel + 1) more acc bs = .ok found := by
  rw [readMembers] at h ⊢
  split at h
  · cases h
  split at h
  · cases h
  rw [if_neg ‹_›]
  split at h
  · cases h
  split at h
  · cases h
  split at h
  · cases h
  · rename_i hvalue
    simp only [robust.value hle hvalue]
    split at h
    · cases h
    · split at h
      · rwa [if_pos ‹_›]
      rw [if_neg ‹_›]
      split at h
      · rw [if_pos ‹_›]
        exact robust.members hle h
      · cases h

end Robust

/-- With more brackets to open, the same is read. The three readers share their fuel, and each of
    them goes on with one unit less. -/
theorem robust_of_fuel (fuel : Nat) : Robust fuel := by
  induction fuel with
  | zero =>
      refine ⟨fun _ h => ?_, fun _ h => ?_, fun _ h => ?_⟩
      · cases h
      · cases h
      · cases h
  | succ fuel ih =>
      exact ⟨readValue_of_more ih, fun hle h => readItems_of_more ih hle h,
        fun hle h => readMembers_of_more ih hle h⟩

/-! ## Written Texts -/

section Written

variable (members : List (String × Json)) (hwell : WellFormedMembers members)
  (hintegral : IntegralMembers members)
include hwell hintegral

/-- A text that stays within the limit is read. -/
theorem parse_write_members (hdepth : nestingMembers members < maxNesting) :
    parse (object members).write = .ok (ofMembers members) := by
  have hread := readValue_members members (2 * (object members).write.length + 1) maxNesting []
    (readsBack_members members hwell hintegral) hdepth (by omega)
  rw [List.append_nil] at hread
  rw [parse, fuelFor, hread]
  rfl

/-- If a text is read at all, it is read as what it was written for. -/
theorem eq_of_parse_write_members (v : Json) (h : parse (object members).write = .ok v) :
    v = ofMembers members := by
  have hread := readValue_members members (2 * (object members).write.length + 1)
    (max maxNesting (nestingMembers members + 1)) []
    (readsBack_members members hwell hintegral) (by omega) (by omega)
  rw [List.append_nil] at hread
  rw [parse, fuelFor] at h
  cases hfound : readValue (2 * (object members).write.length + 2) maxNesting
      (object members).write with
  | error fault =>
      rw [hfound] at h
      cases h
  | ok found =>
      -- Under a limit that is high enough the same is found, and it is known what is found there.
      have hsame := (robust_of_fuel _).value (Nat.le_max_left maxNesting
        (nestingMembers members + 1)) hfound
      have heq : found = (ofMembers members, []) := Except.ok.inj (hsame.symm.trans hread)
      rw [hfound, heq] at h
      exact (Except.ok.inj h).symm

/-- A text that goes deeper is not read. -/
theorem exists_fault_of_nesting (hdepth : maxNesting < (ofMembers members).nesting) :
    ∃ fault, parse (object members).write = .error fault := by
  cases h : parse (object members).write with
  | error fault => exact ⟨fault, rfl⟩
  | ok v =>
      have hv := eq_of_parse_write_members members hwell hintegral v h
      have hwithin := (within_of_parse _ v h).2
      rw [hv] at hwithin
      omega

end Written

end Json

end Gateway
