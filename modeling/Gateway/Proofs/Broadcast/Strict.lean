import Mathlib.Data.List.Basic
import Gateway.Http.Api

/-!
# The Strict View of a Broadcast

A report is looked at in several ways: whether it is complete, who was reached, who failed, and
strictly, as all values or an error. Each goes through the outcomes by itself, so that they agree is
something to be proved. What they agree on is what each outcome comes to by itself, its target if it
was delivered and its target with an error if it failed (`Outcome.told`). The error of a broadcast
holds exactly this of every outcome: the two lists of it together are what is told of the outcomes
in another order, and either list keeps the order of the outcomes.

The sorting goes from the front of the outcomes, so what is said of it is proved by induction on
them, and at each outcome the two cases are its result.

## Main definitions

* `Outcome.told`: What an outcome comes to.
* `BroadcastError.entry`: A failed target in the text of an error.

## Theorems

* `Report.sort_delivered`, `Report.sort_failed`: Sorting agrees with looking.
* `Report.sort_perm`, `Report.sort_sublist`: Every outcome is in one of the two lists, in order.
* `Report.values_ok_iff`, `Report.values_error_iff`: What the strict view is.
* `Report.values_partition`: The strict view leaves nothing out, and no more does its answer.
-/

namespace Gateway

/-- What an outcome comes to: the target that was reached, or the one that failed with its error. -/
def Outcome.told (o : Outcome) : Target ⊕ (Target × CallError) :=
  match o.result with
  | .ok _ => .inl o.target
  | .error e => .inr (o.target, e)

namespace Report

/-! ## Sorting -/

theorem sort_delivered (outcomes : List Outcome) :
    (sort outcomes).delivered = (outcomes.filter Outcome.isDelivered).map Outcome.target := by
  induction outcomes with
  | nil => rfl
  | cons o rest ih =>
      rcases o with ⟨target, result⟩
      cases result with
      | ok v => exact congrArg (target :: ·) ih
      | error e => exact ih

theorem sort_failed (outcomes : List Outcome) :
    (sort outcomes).failed = outcomes.filterMap failure? := by
  induction outcomes with
  | nil => rfl
  | cons o rest ih =>
      rcases o with ⟨target, result⟩
      cases result with
      | ok v => exact ih
      | error e => exact congrArg ((target, e) :: ·) ih

/-- What is told of the outcomes is what stands in the two lists. -/
theorem sort_perm (outcomes : List Outcome) :
    (outcomes.map Outcome.told).Perm
      ((sort outcomes).delivered.map .inl ++ (sort outcomes).failed.map .inr) := by
  induction outcomes with
  | nil => exact List.Perm.refl []
  | cons o rest ih =>
      rcases o with ⟨target, result⟩
      cases result with
      | ok v => exact ih.cons (.inl target)
      | error e => exact (ih.cons (.inr (target, e))).trans List.perm_middle.symm

/-- Each of the two lists is in the order of the outcomes. -/
theorem sort_sublist (outcomes : List Outcome) :
    ((sort outcomes).delivered.map .inl).Sublist (outcomes.map Outcome.told)
      ∧ ((sort outcomes).failed.map .inr).Sublist (outcomes.map Outcome.told) := by
  induction outcomes with
  | nil => exact ⟨List.Sublist.refl [], List.Sublist.refl []⟩
  | cons o rest ih =>
      rcases o with ⟨target, result⟩
      cases result with
      | ok v =>
          have hinl : (⟨target, .ok v⟩ : Outcome).told = .inl target := rfl
          rw [List.map_cons, hinl]
          exact ⟨List.cons_sublist_cons.mpr ih.1, List.sublist_cons_of_sublist _ ih.2⟩
      | error e =>
          have hinr : (⟨target, .error e⟩ : Outcome).told = .inr (target, e) := rfl
          rw [List.map_cons, hinr]
          exact ⟨List.sublist_cons_of_sublist _ ih.1, List.cons_sublist_cons.mpr ih.2⟩

theorem sort_length (outcomes : List Outcome) :
    (sort outcomes).delivered.length + (sort outcomes).failed.length = outcomes.length := by
  have hlength := (sort_perm outcomes).length_eq
  rw [List.length_append, List.length_map, List.length_map, List.length_map] at hlength
  exact hlength.symm

/-! ## The Strict View -/

/-- A report is complete iff nobody failed. -/
theorem isComplete_iff (r : Report) : r.isComplete = true ↔ r.failed = [] := by
  rw [isComplete, failed, List.all_eq_true, List.filterMap_eq_nil_iff]
  refine forall₂_congr fun o _ => ?_
  rcases o with ⟨target, _ | v⟩
  · exact ⟨fun h => absurd h Bool.false_ne_true, fun h => absurd h (Option.some_ne_none _)⟩
  · exact ⟨fun _ => rfl, fun _ => rfl⟩

/-- Where all were delivered their values are their results. -/
theorem map_result_of_complete (outcomes : List Outcome)
    (h : outcomes.all Outcome.isDelivered = true) :
    outcomes.map Outcome.result = (outcomes.filterMap value?).map .ok := by
  induction outcomes with
  | nil => rfl
  | cons o rest ih =>
      rcases o with ⟨target, _ | v⟩
      · exact absurd h Bool.false_ne_true
      · exact congrArg (.ok v :: ·) (ih h)

/-- Where all results are values all were delivered. -/
theorem complete_of_map_result (outcomes : List Outcome) (vs : List Json)
    (h : outcomes.map Outcome.result = vs.map .ok) :
    outcomes.all Outcome.isDelivered = true := by
  refine List.all_eq_true.mpr fun o ho => ?_
  have hresult : o.result ∈ vs.map .ok := h ▸ List.mem_map_of_mem ho
  rcases List.mem_map.mp hresult with ⟨v, _, hv⟩
  rw [Outcome.isDelivered, ← hv]
  rfl

/-- The strict view is a list of values iff these are the results of all outcomes, in order. -/
theorem values_ok_iff (r : Report) (vs : List Json) :
    r.values = .ok vs ↔ r.outcomes.map Outcome.result = vs.map .ok := by
  by_cases hcomplete : r.isComplete = true
  · rw [values, if_pos hcomplete, map_result_of_complete r.outcomes hcomplete]
    refine ⟨fun h => by rw [Except.ok.inj h], fun h => ?_⟩
    rw [List.map_injective_iff.mpr (fun _ _ => Except.ok.inj) h]
  · rw [values, if_neg hcomplete]
    exact ⟨fun h => Except.noConfusion rfl rfl (heq_of_eq h),
      fun h => absurd (complete_of_map_result r.outcomes vs h) hcomplete⟩

/-- The strict view is an error iff someone failed, and the error holds who failed and who was
    reached. -/
theorem values_error_iff (r : Report) (e : BroadcastError) :
    r.values = .error e ↔ r.failed ≠ [] ∧ e.failed = r.failed ∧ e.delivered = r.delivered := by
  rw [ne_eq, ← isComplete_iff]
  by_cases hcomplete : r.isComplete = true
  · rw [values, if_pos hcomplete]
    exact ⟨fun h => Except.noConfusion rfl rfl (heq_of_eq h), fun h => absurd hcomplete h.1⟩
  · rw [values, if_neg hcomplete]
    refine ⟨fun h => ?_, fun h => ?_⟩
    · rw [← Except.error.inj h]
      exact ⟨hcomplete, sort_failed r.outcomes, sort_delivered r.outcomes⟩
    · rcases e with ⟨failed, delivered⟩
      rcases h with ⟨_, rfl, rfl⟩
      rw [failed, delivered, ← sort_failed, ← sort_delivered]

end Report

/-! ## The Error and Its Answer -/

namespace BroadcastError

/-- A failed target in the text of an error. -/
def entry (f : Target × CallError) : String :=
  f.1.name ++ " (" ++ f.2.message ++ ")"

/-- A failed target in the answer that an error becomes. -/
def item (f : Target × CallError) : Json :=
  .object [("error", .string f.2.message), ("target", f.1.json)]

/-- An error accounts for every outcome of a report. -/
structure Accounts (e : BroadcastError) (r : Report) : Prop where
  /-- It holds who failed, as the report has it. -/
  failed : e.failed = r.failed
  /-- It holds who was reached, as the report has it. -/
  delivered : e.delivered = r.delivered
  /-- What is told of an outcome stands in one of the two lists, and nothing else does. -/
  perm : (r.outcomes.map Outcome.told).Perm (e.delivered.map .inl ++ e.failed.map .inr)
  /-- Who was reached stands in the order of the outcomes. -/
  deliveredOrder : (e.delivered.map .inl).Sublist (r.outcomes.map Outcome.told)
  /-- Who failed stands in the order of the outcomes. -/
  failedOrder : (e.failed.map .inr).Sublist (r.outcomes.map Outcome.told)
  /-- The two lists have an entry for each outcome. -/
  length : e.delivered.length + e.failed.length = r.outcomes.length
  /-- So has the text, in which those that were reached are counted. -/
  text : ∃ entries count, e.message = "broadcast failed for " ++ ", ".intercalate entries
      ++ "; delivered to " ++ Decimal.text count ++ " target(s)"
    ∧ entries = r.failed.map entry ∧ count + entries.length = r.outcomes.length
  /-- So has the answer. -/
  answer : ∃ reached missed, Api.acknowledged r = .ofJson 502 (.object
      [("delivered", .array reached), ("error", .string e.message), ("failed", .array missed)])
    ∧ reached = r.delivered.map Target.json ∧ missed = r.failed.map item
    ∧ reached.length + missed.length = r.outcomes.length

/-- The error of the strict view accounts for every outcome. -/
theorem accounts_of_values {r : Report} {e : BroadcastError} (h : r.values = .error e) :
    e.Accounts r := by
  rcases (Report.values_error_iff r e).mp h with ⟨_, hfailed, hdelivered⟩
  have hsorted : e = Report.sort r.outcomes := by
    rw [Report.values] at h
    split at h
    · cases h
    · exact (Except.error.inj h).symm
  have hlength : e.delivered.length + e.failed.length = r.outcomes.length :=
    hsorted ▸ Report.sort_length r.outcomes
  refine ⟨hfailed, hdelivered, hsorted ▸ Report.sort_perm r.outcomes,
    hsorted ▸ (Report.sort_sublist r.outcomes).1, hsorted ▸ (Report.sort_sublist r.outcomes).2,
    hlength, ⟨r.failed.map entry, r.delivered.length, ?_, rfl, ?_⟩,
    ⟨r.delivered.map Target.json, r.failed.map item, ?_, rfl, rfl, ?_⟩⟩
  · rw [← hfailed, ← hdelivered]
    rfl
  · rw [List.length_map, ← hfailed, ← hdelivered, hlength]
  · rw [Api.acknowledged, h, ← hfailed, ← hdelivered]
    rfl
  · rw [List.length_map, List.length_map, ← hfailed, ← hdelivered, hlength]

end BroadcastError

namespace Report

/-- The strict view of a report is a list of values iff the report is complete, which it is iff
    nobody failed. The values are then the results of all outcomes in order, and they are the
    answer. Otherwise the view is an error that accounts for every outcome, and so do its text and
    the answer that it becomes. -/
theorem values_partition (r : Report) :
    ((∃ vs, r.values = .ok vs) ↔ r.isComplete = true)
      ∧ (r.isComplete = true ↔ r.failed = [])
      ∧ (∀ vs, r.values = .ok vs → r.outcomes.map Outcome.result = vs.map .ok
        ∧ Api.acknowledged r = .ofJson 201 (.array vs))
      ∧ ∀ e, r.values = .error e → e.Accounts r := by
  refine ⟨⟨?_, fun hcomplete => ?_⟩, r.isComplete_iff, fun vs h => ?_,
    fun e => BroadcastError.accounts_of_values⟩
  · rintro ⟨vs, h⟩
    exact complete_of_map_result r.outcomes vs ((r.values_ok_iff vs).mp h)
  · exact ⟨_, (r.values_ok_iff _).mpr (map_result_of_complete r.outcomes hcomplete)⟩
  · refine ⟨(r.values_ok_iff vs).mp h, ?_⟩
    rw [Api.acknowledged, h]

/-- A broadcast of which one target tells twice, once that it failed. -/
def divided : Report :=
  ⟨[⟨.inventory, .error .overloaded⟩, ⟨.aiMl, .ok .null⟩, ⟨.inventory, .ok (.bool true)⟩,
    ⟨.notification, .error (.remote .notification "full")⟩]⟩

/-- Who failed in it, and who was reached. -/
def shortfall : BroadcastError :=
  ⟨[(.inventory, .overloaded), (.notification, .remote .notification "full")], [.aiMl, .inventory]⟩

/-- The error accounts for all four outcomes, of which two failed. -/
theorem values_partition_divided :
    divided.values = .error shortfall ∧ shortfall.Accounts divided ∧ divided.isComplete = false
      ∧ shortfall.failed.map BroadcastError.entry
        = ["inventory (gateway overloaded, try again later)",
          "notification (notification rejected the call: full)"]
      ∧ shortfall.delivered.length = 2 := by
  have herror : divided.values = .error shortfall := rfl
  rcases divided.values_partition with ⟨_, _, _, haccounts⟩
  exact ⟨herror, haccounts _ herror, rfl, by decide, rfl⟩

end Report

end Gateway
