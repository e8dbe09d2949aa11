import Gateway.Proofs.Limiter.Runs

/-!
# Sweeps and Other Callers Do Not Show

A caller on a route gets the same answers whether or not windows are swept away meanwhile and
whoever else makes requests. For other callers this is what following a single key already says.
For sweeps it is a comparison of two runs, one that forgets windows and one that never does.

The two are compared by what they hold for the key. As long as they hold the same they answer the
same. A sweep may take the window away in one of them, and from then on that one holds nothing
where the other still holds the window. But a window that was swept away is spent, whether it was
over or its block was, be it only since that very moment; so the next request would have replaced
it, and with that request the two hold the same again (`Agrees`).

That a sweep waits at least as long as the window of a quota is all it takes. The quotas of one key
may even differ from request to request.

## Main definitions

* `Limiter.Occasion.WaitsFor`: A sweep waits for the window of a request.
* `Window.Agrees`: What two runs hold for a key makes no difference to later requests.

## Theorems

* `Window.follow_filter`: Following a key needs nothing but its own requests.
* `Limiter.sweep_spec`: What a sweep takes away, keeps and counts.
* `Limiter.others_invisible`: The answers to a key are those of its requests alone.
-/

namespace Gateway

namespace Limiter

/-- A sweep waits at least for the window of a request of a key; other occasions need not. -/
def Occasion.WaitsFor (key : Key) (o p : Occasion) : Prop :=
  match o.operation, p.operation with
  | .sweep longest, .request quota caller => (quota.route, caller) = key → quota.window ≤ longest
  | _, _ => True

instance (key : Key) : (o p : Occasion) → Decidable (o.WaitsFor key p)
  | ⟨_, .sweep longest⟩, ⟨_, .request quota caller⟩ =>
    inferInstanceAs (Decidable ((quota.route, caller) = key → quota.window ≤ longest))
  | ⟨_, .request _ _⟩, _ => isTrue trivial
  | ⟨_, .sweep _⟩, ⟨_, .sweep _⟩ => isTrue trivial

end Limiter

namespace Window

open Limiter

/-- What is held for a key in two runs makes no difference to later requests under some quotas:
    it is the same, or missing in one and spent in the other. -/
def Agrees (now : Nat) (quotas : Quota → Prop) (held kept : Option Window) : Prop :=
  held = kept
    ∨ (held = none ∧ ∃ w, kept = some w ∧ ∀ quota, quotas quota → w.IsSpent now quota)

section Comparison

variable {now later : Nat} {quotas : Quota → Prop} {held kept : Option Window}

theorem Agrees.mono (h : Agrees now quotas held kept) (hle : now ≤ later) :
    Agrees later quotas held kept := by
  rcases h with hsame | ⟨hnone, w, hw, hspent⟩
  · exact Or.inl hsame
  · exact Or.inr ⟨hnone, w, hw, fun quota hquota => (hspent quota hquota).mono hle⟩

theorem Agrees.check_eq (h : Agrees now quotas held kept) (quota : Quota) (hquota : quotas quota) :
    (held.getD (fresh now)).check now quota = (kept.getD (fresh now)).check now quota := by
  rcases h with hsame | ⟨hnone, w, hw, hspent⟩
  · rw [hsame]
  · rw [hnone, hw, Option.getD_none, Option.getD_some]
    exact (check_of_isSpent now quota w (hspent quota hquota)).symm

/-- A sweep in one run only makes no difference. -/
theorem Agrees.sweep (h : Agrees now quotas held kept) (longest : Nat)
    (hlongest : ∀ quota, quotas quota → quota.window ≤ longest) :
    Agrees now quotas (held.filter (isLive now longest)) kept := by
  rcases h with hsame | ⟨hnone, hkept⟩
  · subst hsame
    cases held with
    | none => exact Or.inl rfl
    | some w =>
        by_cases hlive : w.isLive now longest = true
        · left
          simp only [Option.filter_some, hlive, if_true]
        · right
          refine ⟨?_, w, rfl, fun quota hquota => ?_⟩
          · simp only [Option.filter_some, hlive, Bool.false_eq_true, if_false]
          · exact isSpent_of_not_isLive now longest quota w hlive (hlongest quota hquota)
  · right
    rw [hnone]
    exact ⟨rfl, hkept⟩

end Comparison

/-- Following a key through a run needs nothing but its own requests. -/
theorem follow_filter (key : Key) (quotas : Quota → Prop) (run : List Occasion) (now : Nat)
    (held kept : Option Window) (horder : InOrder run) (hnow : ∀ o ∈ run, now ≤ o.time)
    (hquotas : ∀ o ∈ run, ∀ quota caller, o.operation = .request quota caller →
      (quota.route, caller) = key → quotas quota)
    (hsweeps : ∀ o ∈ run, ∀ longest, o.operation = .sweep longest →
      ∀ quota, quotas quota → quota.window ≤ longest)
    (h : Agrees now quotas held kept) :
    (follow key held run).2 = (follow key kept (run.filter (Occasion.isRequestOf key))).2 := by
  induction run generalizing now held kept with
  | nil => rfl
  | cons o run ih =>
      rcases List.pairwise_cons.mp horder with ⟨hlater, horder'⟩
      have hmem : o ∈ o :: run := List.mem_cons_self
      have hagrees := h.mono (hnow o hmem)
      -- From this occasion on the two runs go on as the induction says.
      have hrest : ∀ held' kept', Agrees o.time quotas held' kept' →
          (follow key held' run).2
            = (follow key kept' (run.filter (Occasion.isRequestOf key))).2 :=
        fun held' kept' h' => ih o.time held' kept' horder' hlater
          (fun p hp => hquotas p (List.mem_cons_of_mem o hp))
          (fun p hp => hsweeps p (List.mem_cons_of_mem o hp)) h'
      rcases o with ⟨time, operation⟩
      cases operation with
      | sweep longest =>
          have hskip : Occasion.isRequestOf key ⟨time, .sweep longest⟩ = false := rfl
          simp only [List.filter_cons, hskip, Bool.false_eq_true, if_false, follow, react,
            List.nil_append]
          exact hrest _ _ (hagrees.sweep longest (hsweeps _ hmem longest rfl))
      | request quota caller =>
          by_cases hkey : (quota.route, caller) = key
          · have htake : Occasion.isRequestOf key ⟨time, .request quota caller⟩ = true :=
              beq_iff_eq.mpr hkey
            -- The same answer, and the same window afterwards.
            have hcheck := hagrees.check_eq quota (hquotas _ hmem quota caller rfl hkey)
            simp only at hcheck
            simp only [List.filter_cons, htake, if_true, follow, react, if_pos hkey, hcheck]
            rw [hrest _ _ (Or.inl rfl)]
          · have hskip : Occasion.isRequestOf key ⟨time, .request quota caller⟩ = false :=
              beq_eq_false_iff_ne.mpr hkey
            simp only [List.filter_cons, hskip, Bool.false_eq_true, if_false, follow, react,
              if_neg hkey, List.nil_append]
            exact hrest _ _ hagrees

end Window

namespace Limiter

open Window

/-- A sweep takes windows away, says how many, and keeps exactly those that are live. -/
theorem sweep_spec (l : Limiter) (now longest : Nat) :
    ((l.sweep now longest).1.windows).Sublist l.windows
      ∧ (l.sweep now longest).2 + (l.sweep now longest).1.tracked = l.tracked
      ∧ ∀ e ∈ l.windows, e ∈ (l.sweep now longest).1.windows
        ↔ now - e.2.started < longest ∨ e.2.IsBlocked now := by
  refine ⟨List.filter_sublist, ?_, fun e he => ?_⟩
  · have hle : (l.windows.filter fun e => e.2.isLive now longest).length ≤ l.windows.length :=
      List.length_filter_le _ _
    simp only [sweep, tracked]
    omega
  · simp only [sweep, List.mem_filter, he, true_and, isLive_iff]

/-- When only requests of a key are made, only they are answered. -/
theorem answersTo_runAll_filter (l : Limiter) (run : List Occasion) (key : Key) :
    answersTo key (l.runAll (run.filter (Occasion.isRequestOf key))).2
      = (l.runAll (run.filter (Occasion.isRequestOf key))).2 := by
  induction run generalizing l with
  | nil => rfl
  | cons o run ih =>
      cases hmine : o.isRequestOf key with
      | false => simp only [List.filter_cons, hmine, Bool.false_eq_true, if_false, ih]
      | true =>
          rcases o with ⟨time, operation⟩
          cases operation with
          | sweep longest => exact absurd hmine Bool.false_ne_true
          | request quota caller =>
              have hkey : (quota.route, caller) = key := beq_iff_eq.mp hmine
              have hrest := ih (l.perform ⟨time, .request quota caller⟩).1
              simp only [answersTo] at hrest
              simp only [List.filter_cons, hmine, if_true, runAll, answersTo, List.filter_append,
                hrest]
              simp only [perform, List.filter, hkey, beq_self_eq_true]

/-- The answers to a caller on a route are those of the run in which nobody else makes requests and
    nothing is swept away; and every sweep keeps the live windows, takes all others away and says
    how many they were. -/
theorem others_invisible (run : List Occasion) (key : Key) (horder : InOrder run)
    (hwaits : ∀ o ∈ run, ∀ p ∈ run, o.WaitsFor key p) :
    answersTo key (empty.runAll run).2
        = (empty.runAll (run.filter (Occasion.isRequestOf key))).2
      ∧ ∀ (l : Limiter) (now longest : Nat), ((l.sweep now longest).1.windows).Sublist l.windows
        ∧ (l.sweep now longest).2 + (l.sweep now longest).1.tracked = l.tracked
        ∧ ∀ e ∈ l.windows, e ∈ (l.sweep now longest).1.windows
          ↔ now - e.2.started < longest ∨ e.2.IsBlocked now := by
  refine ⟨?_, sweep_spec⟩
  -- The quotas that matter are those of the requests of the key.
  have hfollow := follow_filter key
    (fun quota => ∃ p ∈ run, ∃ caller, p.operation = .request quota caller
      ∧ (quota.route, caller) = key)
    run 0 none none horder (fun _ _ => Nat.zero_le _)
    (fun o ho quota caller hrequest hkey => ⟨o, ho, caller, hrequest, hkey⟩) ?_ (Or.inl rfl)
  · rw [(runAll_follow empty run key keysDistinct_empty).2, ← answersTo_runAll_filter,
      (runAll_follow empty _ key keysDistinct_empty).2, find?_empty]
    exact hfollow
  · rintro o ho longest hsweep quota ⟨p, hp, caller, hrequest, hkey⟩
    have hwait := hwaits o ho p hp
    simp only [Occasion.WaitsFor, hsweep, hrequest] at hwait
    exact hwait hkey

/-- A caller who is blocked, swept away at the very end of the block, and lets a window pass; in
    between are sweeps that come a moment too early, and another caller. -/
def sweptRun : List Occasion :=
  List.replicate 6 ⟨1000, .request .broadcast "alice"⟩
    ++ [⟨2000, .request .broadcast "bob"⟩, ⟨60999, .sweep 60000⟩,
      ⟨61000, .sweep 60000⟩, ⟨61000, .request .broadcast "alice"⟩, ⟨70000, .sweep 60000⟩,
      ⟨121000, .sweep 60000⟩, ⟨121000, .request .broadcast "alice"⟩]

theorem others_invisible_swept :
    InOrder sweptRun
      ∧ (∀ o ∈ sweptRun, ∀ p ∈ sweptRun, o.WaitsFor ("broadcast", "alice") p)
      ∧ answersTo ("broadcast", "alice") (empty.runAll sweptRun).2
        = (empty.runAll (List.replicate 6 ⟨1000, .request .broadcast "alice"⟩
          ++ [⟨61000, .request .broadcast "alice"⟩, ⟨121000, .request .broadcast "alice"⟩])).2
      ∧ (answersTo ("broadcast", "alice") (empty.runAll sweptRun).2).map Answered.verdict
        = List.replicate 5 .admitted ++ [.refused 60000, .admitted, .admitted] := by
  have horder : InOrder sweptRun := by
    unfold InOrder
    decide
  have hwaits : ∀ o ∈ sweptRun, ∀ p ∈ sweptRun, o.WaitsFor ("broadcast", "alice") p := by decide
  exact ⟨horder, hwaits, (others_invisible sweptRun _ horder hwaits).1, by decide⟩

end Limiter

end Gateway
