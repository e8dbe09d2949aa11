import Mathlib.Algebra.Order.BigOperators.Group.List
import Mathlib.Algebra.Order.Group.Nat
import Mathlib.Data.List.Induction
import Mathlib.Data.List.Pairwise
import Gateway.Proofs.Limiter.Runs

/-!
# What a Quota Allows

A quota allows a caller `points` requests in one window, and windows cannot be started faster than
one in the time that a window takes. Together that bounds what is let through in any stretch of time
that is as long as a window: two windows reach into it at most, so twice the points.

A window comes to be in four ways: with the first request, after a window that is over, after a
block that is over, and with the first request after a sweep took the old one away. In each of them
the window before has lasted for its whole time. For a block this needs `quota.window ≤
quota.block`: the block begins within the window and discards it when it ends, so a shorter block
would let a caller start over early.

What carries the induction is `Counted`. It says of the window that is held that it began a whole
window after every other one in the log (`Fits.apart`), that its counter is the number of requests
it let through (`Fits.counted`), and that a block in it does not end before it does
(`Fits.outlasts`). When no window is held, all that were are over.

## Main definitions

* `Limiter.admittedIn`, `Limiter.admittedDuring`: How many requests were let through in one window,
  and in a stretch of time.
* `Limiter.Fits`: A window that the requests in a log fell into.
* `Limiter.Counted`: What holds of one key at any time.

## Theorems

* `Limiter.fits_current`: The window that a request falls into fits the log before it.
* `Limiter.counted_react`: What holds of a key is kept by every operation.
* `Limiter.admittedDuring_le`: Windows that are far enough apart allow twice the points.
* `Limiter.allowance_kept`: The bounds, for every run.
-/

namespace Gateway

namespace Limiter

open Window

/-- How many requests of a log were let through in the window that started at a time. -/
def admittedIn (start : Nat) (log : List Answered) : Nat :=
  log.countP fun a => a.isAdmitted && a.started == start

/-- How many requests of a log were let through in a stretch of time, its end not included. -/
def admittedDuring (time length : Nat) (log : List Answered) : Nat :=
  log.countP fun a => a.isAdmitted && (decide (time ≤ a.time) && decide (a.time < time + length))

/-- One of two windows is the other, or started after the other was over. -/
def Answered.Apart (quota : Quota) (a b : Answered) : Prop :=
  a.started = b.started ∨ a.started + quota.window ≤ b.started

/-- A window is the last that the requests in a log fell into, or is about to be the next. -/
structure Fits (quota : Quota) (now : Nat) (log : List Answered) (w : Window) : Prop where
  started_le : w.started ≤ now
  used_le : w.used ≤ quota.points
  counted : admittedIn w.started log = w.used
  apart : ∀ a ∈ log, a.started = w.started ∨ a.started + quota.window ≤ w.started
  outlasts : ∀ t, w.blockedUntil = some t → w.started + quota.window ≤ t

/-- What holds of the window that is held for a key and of the requests answered so far. -/
structure Counted (quota : Quota) (now : Nat) (log : List Answered) (held : Option Window) :
    Prop where
  apart : log.Pairwise (Answered.Apart quota)
  within : ∀ a ∈ log, a.isAdmitted = true →
    a.started ≤ a.time ∧ a.time < a.started + quota.window
  few : ∀ start, admittedIn start log ≤ quota.points
  fits : ∀ w, held = some w → Fits quota now log w
  past : held = none → ∀ a ∈ log, a.started + quota.window ≤ now

section OneKey

variable {quota : Quota} {now later : Nat} {log : List Answered} {w : Window}

theorem Fits.mono (h : Fits quota now log w) (hle : now ≤ later) : Fits quota later log w :=
  { h with started_le := Nat.le_trans h.started_le hle }

theorem fits_fresh (hwindow : 0 < quota.window)
    (hover : ∀ a ∈ log, a.started + quota.window ≤ now) : Fits quota now log (fresh now) := by
  refine ⟨Nat.le_refl now, Nat.zero_le _, ?_, fun a ha => Or.inr (hover a ha), ?_⟩
  · -- No request of the log fell into a window that starts only now.
    have hnone : ∀ a ∈ log, ¬ (a.isAdmitted && a.started == now) = true := by
      intro a ha hc
      have hstarted := beq_iff_eq.mp (Bool.and_eq_true_iff.mp hc).2
      have hbefore := hover a ha
      omega
    exact List.countP_eq_zero.mpr hnone
  · intro t ht
    exact absurd ht (by simp only [fresh, reduceCtorEq, not_false_eq_true])

/-- A window that is spent has lasted for its whole time. -/
theorem Fits.over_of_isSpent (h : Fits quota now log w) (hwindow : 0 < quota.window)
    (hspent : w.IsSpent now quota) : w.started + quota.window ≤ now := by
  cases hblock : w.blockedUntil with
  | some t =>
      have hend : ¬ now < t := fun hlt => hspent.1 ⟨t, hblock, hlt⟩
      have houtlasts := h.outlasts t hblock
      omega
  | none =>
      have hlong := hspent.2 hblock
      omega

theorem Fits.all_over (h : Fits quota now log w) (hend : w.started + quota.window ≤ now) :
    ∀ a ∈ log, a.started + quota.window ≤ now := by
  intro a ha
  rcases h.apart a ha with heq | hle <;> omega

/-- The window that a request falls into fits, and the request falls within its time. -/
theorem fits_current (hwindow : 0 < quota.window) (h : Fits quota now log w)
    (hblock : ¬ w.IsBlocked now) :
    Fits quota now log (w.current now quota)
      ∧ now < (w.current now quota).started + quota.window := by
  by_cases hspent : w.IsSpent now quota
  · rw [current_of_isSpent now quota w hspent]
    exact ⟨fits_fresh hwindow (h.all_over (h.over_of_isSpent hwindow hspent)),
      Nat.lt_add_of_pos_right hwindow⟩
  · rcases current_of_not_isSpent now quota w hblock hspent with ⟨hsame, _, hlt⟩
    have hstarted := h.started_le
    rw [hsame]
    exact ⟨h, by omega⟩

/-- The window that a request of a key meets fits. -/
theorem Counted.fits_met {held : Option Window} (hwindow : 0 < quota.window)
    (h : Counted quota now log held) : Fits quota now log (held.getD (fresh now)) := by
  cases held with
  | some w => exact h.fits w rfl
  | none => exact fits_fresh hwindow (h.past rfl)

theorem admittedIn_snoc (start : Nat) (log : List Answered) (a : Answered) :
    admittedIn start (log ++ [a])
      = admittedIn start log + if a.isAdmitted && a.started == start then 1 else 0 := by
  simp only [admittedIn, List.countP_append, List.countP_cons, List.countP_nil, Nat.zero_add]

theorem Fits.apart_snoc (h : Fits quota now log w) (a : Answered) (ha : a.started = w.started)
    (hpairwise : log.Pairwise (Answered.Apart quota)) :
    (log ++ [a]).Pairwise (Answered.Apart quota) := by
  rw [List.pairwise_append]
  refine ⟨hpairwise, List.pairwise_singleton _ _, ?_⟩
  intro b hb c hc
  rw [List.mem_singleton.mp hc, Answered.Apart, ha]
  exact h.apart b hb

/-- A request that is refused adds nothing to the counts. -/
theorem counted_refused {key : Key} {wait : Nat} {blocked : Option Nat} {held : Option Window}
    (h : Counted quota now log held) (hfits : Fits quota now log w)
    (hblocked : ∀ t, blocked = some t → w.started + quota.window ≤ t) :
    Counted quota now (log ++ [⟨now, key, w.started, .refused wait⟩])
      (some { w with blockedUntil := blocked }) := by
  have hsame : ∀ start, admittedIn start (log ++ [⟨now, key, w.started, .refused wait⟩])
      = admittedIn start log := fun start => admittedIn_snoc start log _
  refine ⟨hfits.apart_snoc _ rfl h.apart, ?_, fun start => ?_, ?_, ?_⟩
  · intro a ha hadmitted
    rcases List.mem_append.mp ha with ha | ha
    · exact h.within a ha hadmitted
    · rw [List.mem_singleton.mp ha] at hadmitted
      exact absurd hadmitted Bool.false_ne_true
  · rw [hsame]
    exact h.few start
  · intro v hv
    rw [← Option.some.inj hv]
    refine ⟨hfits.started_le, hfits.used_le, (hsame _).trans hfits.counted, ?_, hblocked⟩
    intro a ha
    rcases List.mem_append.mp ha with ha | ha
    · exact hfits.apart a ha
    · rw [List.mem_singleton.mp ha]
      exact Or.inl rfl
  · intro hnone
    exact absurd hnone (Option.some_ne_none _)

/-- A request that is let through is counted, once in the log and once in its window. -/
theorem counted_admitted {key : Key} {held : Option Window} (h : Counted quota now log held)
    (hfits : Fits quota now log w) (hend : now < w.started + quota.window)
    (hused : w.used < quota.points) :
    Counted quota now (log ++ [⟨now, key, w.started, .admitted⟩])
      (some { w with used := w.used + 1 }) := by
  have hself : admittedIn w.started (log ++ [⟨now, key, w.started, .admitted⟩]) = w.used + 1 := by
    rw [admittedIn_snoc, hfits.counted]
    simp only [Answered.isAdmitted, beq_self_eq_true, Bool.and_self, if_true]
  refine ⟨hfits.apart_snoc _ rfl h.apart, ?_, fun start => ?_, ?_, ?_⟩
  · intro a ha hadmitted
    rcases List.mem_append.mp ha with ha | ha
    · exact h.within a ha hadmitted
    · rw [List.mem_singleton.mp ha]
      exact ⟨hfits.started_le, hend⟩
  · by_cases hstart : w.started = start
    · rw [← hstart, hself]
      omega
    · have hne : (w.started == start) = false := beq_eq_false_iff_ne.mpr hstart
      rw [admittedIn_snoc]
      simp only [hne, Bool.and_false, Bool.false_eq_true, if_false, Nat.add_zero]
      exact h.few start
  · intro v hv
    rw [← Option.some.inj hv]
    refine ⟨hfits.started_le, hused, hself, ?_, hfits.outlasts⟩
    intro a ha
    rcases List.mem_append.mp ha with ha | ha
    · exact hfits.apart a ha
    · rw [List.mem_singleton.mp ha]
      exact Or.inl rfl
  · intro hnone
    exact absurd hnone (Option.some_ne_none _)

theorem Counted.mono {held : Option Window} (h : Counted quota now log held) (hle : now ≤ later) :
    Counted quota later log held :=
  { h with
    fits := fun w hw => (h.fits w hw).mono hle
    past := fun hnone a ha => Nat.le_trans (h.past hnone a ha) hle }

/-- A sweep takes windows away that are over. -/
theorem counted_sweep {held : Option Window} {longest : Nat} (hwindow : 0 < quota.window)
    (hlongest : quota.window ≤ longest) (h : Counted quota now log held) :
    Counted quota now log (held.filter (isLive now longest)) := by
  refine ⟨h.apart, h.within, h.few, ?_, ?_⟩
  · intro w hw
    exact h.fits w (Option.filter_eq_some_iff.mp hw).1
  · intro hnone
    cases held with
    | none => exact h.past rfl
    | some w =>
        have hfits := h.fits w rfl
        have hlive : ¬ w.isLive now longest = true := by
          intro hc
          simp only [Option.filter_some, hc, if_true, reduceCtorEq] at hnone
        exact hfits.all_over
          (hfits.over_of_isSpent hwindow (isSpent_of_not_isLive now longest quota w hlive hlongest))

end OneKey

/-- An occasion keeps to a quota: requests of its key are made under it, and sweeps wait for its
    window. -/
def Occasion.KeepsTo (quota : Quota) (caller : String) (o : Occasion) : Prop :=
  match o.operation with
  | .request q c => (q.route, c) = (quota.route, caller) → q = quota
  | .sweep longest => quota.window ≤ longest

instance (quota : Quota) (caller : String) : (o : Occasion) → Decidable (o.KeepsTo quota caller)
  | ⟨_, .request q c⟩ =>
    inferInstanceAs (Decidable ((q.route, c) = (quota.route, caller) → q = quota))
  | ⟨_, .sweep longest⟩ => inferInstanceAs (Decidable (quota.window ≤ longest))

theorem counted_react {quota : Quota} {caller : String} {now : Nat} {log : List Answered}
    {held : Option Window} (o : Occasion) (hwindow : 0 < quota.window)
    (hblock : quota.window ≤ quota.block) (hkeeps : o.KeepsTo quota caller) (hnow : now ≤ o.time)
    (h : Counted quota now log held) :
    Counted quota o.time (log ++ (react (quota.route, caller) o held).2)
      (react (quota.route, caller) o held).1 := by
  have hlater := h.mono hnow
  rcases o with ⟨time, operation⟩
  simp only at hlater
  cases operation with
  | sweep longest =>
      simp only [react, List.append_nil]
      exact counted_sweep hwindow hkeeps hlater
  | request q c =>
      by_cases hkey : (q.route, c) = (quota.route, caller)
      · have hq : q = quota := hkeeps hkey
        subst hq
        have hmet := hlater.fits_met hwindow
        simp only [react, if_pos hkey]
        rcases check_cases time q (held.getD (fresh time)) with
          ⟨t, ht, _, hcheck⟩ | ⟨hfree, _, hcheck⟩ | ⟨hfree, hpoints, hcheck⟩
        · -- Refused during a block, which leaves the window as it is.
          rw [hcheck]
          exact counted_refused hlater hmet hmet.outlasts
        · -- Refused and blocked, for no shorter than the window lasts.
          rcases fits_current hwindow hmet hfree with ⟨hfits, _⟩
          rw [hcheck]
          refine counted_refused (w := (held.getD (fresh time)).current time q) hlater hfits
            fun t ht => ?_
          have hstarted := hfits.started_le
          have hend := Option.some.inj ht
          omega
        · -- Let through.
          rcases fits_current hwindow hmet hfree with ⟨hfits, hend⟩
          rw [hcheck]
          exact counted_admitted hlater hfits hend hpoints
      · simp only [react, if_neg hkey, List.append_nil]
        exact hlater

theorem counted_start (quota : Quota) (now : Nat) : Counted quota now [] none := by
  refine ⟨List.Pairwise.nil, ?_, fun _ => Nat.zero_le _, ?_, ?_⟩
  · intro a ha
    exact absurd ha List.not_mem_nil
  · intro w hw
    exact absurd hw.symm (Option.some_ne_none w)
  · intro _ a ha
    exact absurd ha List.not_mem_nil

/-- What holds of a key holds after any run that keeps to its quota. -/
theorem counted_follow (quota : Quota) (caller : String) (run : List Occasion) (now : Nat)
    (hwindow : 0 < quota.window) (hblock : quota.window ≤ quota.block) (horder : InOrder run)
    (hkeeps : ∀ o ∈ run, o.KeepsTo quota caller) (hnow : ∀ o ∈ run, o.time ≤ now) :
    Counted quota now (follow (quota.route, caller) none run).2
      (follow (quota.route, caller) none run).1 := by
  induction run using List.reverseRecOn generalizing now with
  | nil => exact counted_start quota now
  | append_singleton run o ih =>
      have hmem : o ∈ run ++ [o] := List.mem_append_right run (List.mem_singleton_self o)
      rcases List.pairwise_append.mp horder with ⟨hbefore, _, hlast⟩
      -- The last occasion comes at a time that the others are not after.
      have hcounted := ih o.time hbefore (fun p hp => hkeeps p (List.mem_append_left _ hp))
        fun p hp => hlast p hp o (List.mem_singleton_self o)
      rw [follow_snoc]
      exact (counted_react o hwindow hblock (hkeeps o hmem) (Nat.le_refl _) hcounted).mono
        (hnow o hmem)

/-! ## Any Stretch of Time -/

theorem countP_le_add {α : Type} (p q r : α → Bool) (l : List α)
    (h : ∀ a ∈ l, p a = true → q a = true ∨ r a = true) :
    l.countP p ≤ l.countP q + l.countP r := by
  induction l with
  | nil => exact Nat.zero_le _
  | cons a l ih =>
      have hrest := ih fun b hb => h b (List.mem_cons_of_mem a hb)
      have hhead := h a List.mem_cons_self
      simp only [List.countP_cons]
      cases hp : p a with
      | false =>
          simp only [Bool.false_eq_true, if_false]
          omega
      | true =>
          rcases hhead hp with hq | hr
          · simp only [hq, if_true]
            omega
          · simp only [hr, if_true]
            omega

/-- Windows that are far enough apart let through twice the points, whenever one looks. -/
theorem admittedDuring_le (quota : Quota) (now : Nat) (log : List Answered) (held : Option Window)
    (h : Counted quota now log held) (time : Nat) :
    admittedDuring time quota.window log ≤ 2 * quota.points := by
  -- Whichever two requests of the log are compared, their windows are one or far apart.
  have hapart : ∀ a ∈ log, ∀ b ∈ log, a.started = b.started
      ∨ a.started + quota.window ≤ b.started ∨ b.started + quota.window ≤ a.started := by
    refine List.Pairwise.forall_of_forall_of_flip (fun a _ => Or.inl rfl) (h.apart.imp ?_)
      (h.apart.imp ?_)
    · rintro a b (heq | hle)
      · exact Or.inl heq
      · exact Or.inr (Or.inl hle)
    · rintro a b (heq | hle)
      · exact Or.inl heq.symm
      · exact Or.inr (Or.inr hle)
  by_cases hany : ∃ a ∈ log, a.isAdmitted = true ∧ time ≤ a.time ∧ a.time < time + quota.window
  · rcases hany with ⟨a, ha, hadmitted, hfrom, huntil⟩
    by_cases hother : ∃ b ∈ log, b.isAdmitted = true ∧ (time ≤ b.time ∧ b.time < time + quota.window)
        ∧ b.started ≠ a.started
    · -- Requests of two windows were let through, and a third window would not reach there.
      rcases hother with ⟨b, hb, hbadmitted, hbtime, hne⟩
      have hcover := countP_le_add
        (fun c => c.isAdmitted && (decide (time ≤ c.time) && decide (c.time < time + quota.window)))
        (fun c => c.isAdmitted && c.started == a.started)
        (fun c => c.isAdmitted && c.started == b.started) log ?_
      · have hfewa := h.few a.started
        have hfewb := h.few b.started
        simp only [admittedDuring, admittedIn] at *
        omega
      · intro c hc hcp
        simp only [Bool.and_eq_true, decide_eq_true_eq, beq_iff_eq] at hcp ⊢
        rcases hcp with ⟨hcadmitted, hcfrom, hcuntil⟩
        simp only [hcadmitted, true_and]
        have hwa := h.within a ha hadmitted
        have hwb := h.within b hb hbadmitted
        have hwc := h.within c hc hcadmitted
        have hab := hapart a ha b hb
        have hac := hapart a ha c hc
        have hbc := hapart b hb c hc
        omega
    · -- All of them fell into one window.
      have hcover := countP_le_add
        (fun c => c.isAdmitted && (decide (time ≤ c.time) && decide (c.time < time + quota.window)))
        (fun c => c.isAdmitted && c.started == a.started) (fun _ => false) log ?_
      · have hfew := h.few a.started
        have hnone : log.countP (fun _ => false) = 0 := congrFun List.countP_false log
        simp only [admittedDuring, admittedIn] at *
        omega
      · intro c hc hcp
        simp only [Bool.and_eq_true, decide_eq_true_eq, beq_iff_eq] at hcp ⊢
        left
        refine ⟨hcp.1, ?_⟩
        by_contra hne
        exact hother ⟨c, hc, hcp.1, hcp.2, hne⟩
  · -- None was let through at all.
    have hzero : admittedDuring time quota.window log = 0 := by
      refine List.countP_eq_zero.mpr fun a ha hp => hany ⟨a, ha, ?_⟩
      simp only [Bool.and_eq_true, decide_eq_true_eq] at hp
      exact hp
    rw [hzero]
    exact Nat.zero_le _

/-- In every run that keeps to a quota, the counter of a caller stays within the points, windows
    that are not the same start a window apart, and the requests let through are at most the points
    in one window and at most twice the points in any stretch of time as long as a window. -/
theorem allowance_kept (quota : Quota) (caller : String) (run : List Occasion)
    (hwindow : 0 < quota.window) (hblock : quota.window ≤ quota.block) (horder : InOrder run)
    (hkeeps : ∀ o ∈ run, o.KeepsTo quota caller) :
    (∀ w, (empty.runAll run).1.find? (quota.route, caller) = some w → w.used ≤ quota.points)
      ∧ (answersTo (quota.route, caller) (empty.runAll run).2).Pairwise
        (fun a b => a.started = b.started ∨ a.started + quota.window ≤ b.started)
      ∧ (∀ a ∈ answersTo (quota.route, caller) (empty.runAll run).2, a.isAdmitted = true →
        a.started ≤ a.time ∧ a.time < a.started + quota.window)
      ∧ (∀ start, admittedIn start (answersTo (quota.route, caller) (empty.runAll run).2)
        ≤ quota.points)
      ∧ ∀ time, admittedDuring time quota.window
        (answersTo (quota.route, caller) (empty.runAll run).2) ≤ 2 * quota.points := by
  rcases runAll_follow empty run (quota.route, caller) keysDistinct_empty with ⟨hheld, hlog⟩
  have hcounted := counted_follow quota caller run (run.map Occasion.time).sum hwindow hblock horder
    hkeeps fun o ho => List.le_sum_of_mem (List.mem_map_of_mem ho)
  rw [hheld, hlog, find?_empty]
  exact ⟨fun w hw => (hcounted.fits w hw).used_le, hcounted.apart, hcounted.within, hcounted.few,
    admittedDuring_le quota _ _ _ hcounted⟩

/-- A caller who uses the end of one window and the beginning of the next, is blocked, and comes
    back after a sweep; another caller on the same route is none of their concern. -/
def overEdge : List Occasion :=
  [⟨0, .request .predictions "alice"⟩] ++ List.replicate 4 ⟨59999, .request .predictions "alice"⟩
    ++ List.replicate 6 ⟨60000, .request .predictions "alice"⟩
    ++ [⟨60001, .request .predictions "bob"⟩, ⟨120000, .sweep 60000⟩,
      ⟨120000, .request .predictions "alice"⟩]

theorem allowance_kept_over_edge :
    InOrder overEdge ∧ (∀ o ∈ overEdge, o.KeepsTo .predictions "alice")
      ∧ (answersTo ("predictions", "alice") (empty.runAll overEdge).2).map Answered.started
        = List.replicate 5 0 ++ List.replicate 6 60000 ++ [120000]
      ∧ admittedDuring 59999 60000 (answersTo ("predictions", "alice") (empty.runAll overEdge).2) = 9
      ∧ ∀ time, admittedDuring time 60000
        (answersTo ("predictions", "alice") (empty.runAll overEdge).2) ≤ 2 * 5 := by
  have horder : InOrder overEdge := by
    unfold InOrder
    decide
  have hkeeps : ∀ o ∈ overEdge, o.KeepsTo .predictions "alice" := by decide
  refine ⟨horder, hkeeps, by decide, by decide, ?_⟩
  exact (allowance_kept .predictions "alice" overEdge (by decide) (by decide) horder
    hkeeps).2.2.2.2

end Limiter

end Gateway
