import Mathlib.Data.List.TakeWhile
import Gateway.Text.Blank

/-!
# Texts Without White Space Around Them

What is left of a text without the white space around it is a part of it: white space stands before
it and behind it and nothing else does, and it neither begins nor ends with any. There is one such
part and no other, so this says all that there is to say of `trim` (`trimChars_eq_iff`), and whoever
asks what a trimmed text looks like need not know how the blanks are dropped.

## Main definitions

* `Text.Trims`: A part of a text is what is left of it.

## Theorems

* `Text.trimChars_eq_iff`: What is left of a text without white space around it.
-/

namespace Gateway

namespace Text

/-- A part of a text is what is left of it without the white space around it. -/
structure Trims (cs part : List Char) : Prop where
  /-- There is only white space around it. -/
  around : ∃ front back, cs = front ++ (part ++ back)
    ∧ (∀ c ∈ front, isBlank c = true) ∧ ∀ c ∈ back, isBlank c = true
  /-- It does not begin with white space. -/
  first : ∀ c ∈ part.head?, isBlank c = false
  /-- It does not end with white space. -/
  last : ∀ c ∈ part.getLast?, isBlank c = false

theorem dropWhile_of_head? {cs : List Char} (h : ∀ c ∈ cs.head?, isBlank c = false) :
    cs.dropWhile isBlank = cs := by
  cases cs with
  | nil => rfl
  | cons c cs => rw [List.dropWhile_cons, h c rfl, if_neg Bool.false_ne_true]

theorem isBlank_of_head?_dropWhile (cs : List Char) :
    ∀ c ∈ (cs.dropWhile isBlank).head?, isBlank c = false := by
  intro c hc
  have hnot := List.head?_dropWhile_not isBlank cs
  rw [hc] at hnot
  exact hnot

/-- What `trimChars` gives is what is left. -/
theorem trims_trimChars (cs : List Char) : Trims cs (trimChars cs) := by
  -- The back is dropped from the front of what was turned round.
  have hback : (cs.dropWhile isBlank).reverse.takeWhile isBlank
      ++ (cs.dropWhile isBlank).reverse.dropWhile isBlank = (cs.dropWhile isBlank).reverse :=
    List.takeWhile_append_dropWhile
  have hsplit : cs.dropWhile isBlank = trimChars cs
      ++ ((cs.dropWhile isBlank).reverse.takeWhile isBlank).reverse := by
    rw [trimChars, ← List.reverse_append, hback, List.reverse_reverse]
  refine ⟨⟨cs.takeWhile isBlank, ((cs.dropWhile isBlank).reverse.takeWhile isBlank).reverse, ?_,
    fun c hc => List.mem_takeWhile_imp hc,
    fun c hc => List.mem_takeWhile_imp (List.mem_reverse.mp hc)⟩, ?_, ?_⟩
  · rw [← hsplit, List.takeWhile_append_dropWhile]
  · intro c hc
    -- It begins like what the blanks at the front were dropped from.
    refine isBlank_of_head?_dropWhile cs c ?_
    rw [hsplit, List.head?_append, hc]
    rfl
  · intro c hc
    rw [trimChars, List.getLast?_reverse] at hc
    exact isBlank_of_head?_dropWhile _ c hc

/-- Whatever is left is what `trimChars` gives. -/
theorem trimChars_of_trims {cs part : List Char} (h : Trims cs part) : trimChars cs = part := by
  rcases h with ⟨⟨front, back, rfl, hfront, hback⟩, hfirst, hlast⟩
  rw [trimChars, List.dropWhile_append_of_pos hfront]
  cases part with
  | nil =>
      rw [List.nil_append, List.dropWhile_eq_nil_iff.mpr hback]
      rfl
  | cons c part =>
      have hkept : ((c :: part) ++ back).dropWhile isBlank = (c :: part) ++ back :=
        dropWhile_of_head? fun d hd => hfirst d hd
      rw [hkept, List.reverse_append,
        List.dropWhile_append_of_pos fun d hd => hback d (List.mem_reverse.mp hd),
        dropWhile_of_head? fun d hd => hlast d (by rw [← List.head?_reverse]; exact hd),
        List.reverse_reverse]

/-- There is one part of a text that is what is left of it. -/
theorem trimChars_eq_iff (cs part : List Char) : trimChars cs = part ↔ Trims cs part :=
  ⟨fun h => h ▸ trims_trimChars cs, trimChars_of_trims⟩

theorem toList_trim (s : String) : (trim s).toList = trimChars s.toList :=
  String.toList_ofList

end Text

end Gateway
