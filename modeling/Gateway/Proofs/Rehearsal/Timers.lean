import Gateway.Proofs.Rehearsal.Answers

/-!
# Timers Are Used Up

The clock goes from one time at which something is due to the next, and at each of them everything
that is due is woken and works. The moves of the clock come to an end because nothing sets a timer
while it works: what is left of something has some of the timers that it had, in the same order, and
none of them is due (`work_timers`). So once everything woken has worked nothing at all is due
(`tick?_timers`), and as something was due before, there are fewer timers. Their number therefore
bounds the moves, as the loops that move the clock assume.

Two things might upset this. A time limit of a request is looked at only by the layers around the
interface, and were there a limit without them, it would stay due for ever; there is none in a
reachable state. And what one activity does might add to the timers of another. It cannot: flights
belong to one activity each, and a server that drains no more does not begin again.

## Main definitions

* `Rehearsal.timersAt`, `Rehearsal.timersOf`: The timers of one activity.
* `Rehearsal.Quieter`: Everybody has some of the timers that it had.

## Theorems

* `Flight.outcome?_eq_none_iff`: A flight has not settled while none of its timers is due.
* `work_timers`: What works keeps no timer that is due.
* `run_timers`, `settle_timers`: What was woken has no timer that is due once it has run.
* `tick?_timers`: A move of the clock leaves nothing due, and fewer timers.
-/

namespace Gateway

theorem Flight.outcome?_eq_none_iff (f : Flight) (now : Nat) :
    f.outcome? now = none ↔ ∀ t ∈ f.timers, now < t.due := by
  have htimers : (∀ t ∈ f.timers, now < t.due)
      ↔ now < f.reply.due ∧ ∀ t ∈ f.limit, now < t.due := by
    simp [timers]
  rw [htimers]
  unfold outcome?
  by_cases hreply : f.reply.due ≤ now
  · simp only [if_pos hreply, reduceCtorEq, false_iff, not_and]
    omega
  · cases hlimit : f.limit with
    | none =>
        simp only [if_neg hreply, Option.mem_def, reduceCtorEq, false_implies, implies_true,
          and_true, true_iff]
        omega
    | some t =>
        simp only [if_neg hreply, Option.mem_def, Option.some.injEq, forall_eq']
        by_cases hdue : t.due ≤ now
        · simp only [if_pos hdue, reduceCtorEq, false_iff]
          omega
        · simp only [if_neg hdue, true_iff]
          omega

/-- The timers of a call that is under way. -/
def Leg.timers (flights : Nat → Option Flight) (leg : Leg) : List Timer :=
  match leg.state with
  | .flying n => ((flights n).map Flight.timers).getD []
  | .settled _ => []

namespace Rehearsal

/-- The timers of something that stands so. -/
def timersAt (r : Rehearsal) : Progress → List Timer
  | .running errand => r.timers errand
  | _ => []

/-- The timers of the activity of a given number. -/
def timersOf (r : Rehearsal) (n : Nat) : List Timer :=
  (r.activities[n]?).elim [] fun a => r.timersAt a.progress

theorem timers_calls (r : Rehearsal) (legs : List Leg) (purpose : Purpose) (visit : Option Visit) :
    r.timers (.calls legs purpose visit)
      = (visit.bind Visit.limit).toList ++ legs.flatMap (Leg.timers r.board.flight?) := rfl

section Parts

variable {r s t : Rehearsal}

/-! ## Working -/

theorem flatMap_sublist_flatMap {α β : Type} {f g : α → List β} (l : List α)
    (h : ∀ a ∈ l, (f a).Sublist (g a)) : (l.flatMap f).Sublist (l.flatMap g) := by
  induction l with
  | nil => exact List.Sublist.refl _
  | cons a l ih =>
      rw [List.flatMap_cons, List.flatMap_cons]
      exact (h a List.mem_cons_self).append (ih fun b hb => h b (List.mem_cons_of_mem a hb))

theorem timers_congr {flights others : Nat → Option Flight} (legs : List Leg)
    (h : ∀ m ∈ numbersOf legs, others m = flights m) :
    legs.flatMap (Leg.timers others) = legs.flatMap (Leg.timers flights) := by
  refine List.flatMap_congr fun leg hleg => ?_
  rcases leg with ⟨target, result | n⟩
  · rfl
  · have hn : others n = flights n := h n (List.mem_filterMap.mpr ⟨_, hleg, rfl⟩)
    simp only [Leg.timers, hn]

/-- A call that was looked at has settled, or has the timers that it had, none of which is due. -/
theorem landed_timers (flights : Nat → Option Flight) (now : Nat) (leg : Leg) :
    (Leg.timers flights (Leg.landed flights now leg)).Sublist (Leg.timers flights leg)
      ∧ ∀ t ∈ Leg.timers flights (Leg.landed flights now leg), now < t.due := by
  rcases leg with ⟨target, result | n⟩
  · exact ⟨List.Sublist.refl _, fun t ht => absurd ht List.not_mem_nil⟩
  · cases hf : flights n with
    | none =>
        simp only [Leg.landed, Leg.timers, hf, Option.bind_none]
        exact ⟨List.Sublist.refl _, fun t ht => absurd ht List.not_mem_nil⟩
    | some f =>
        cases hout : f.outcome? now with
        | none =>
            simp only [Leg.landed, Leg.timers, hf, Option.bind_some, hout]
            exact ⟨List.Sublist.refl _, (f.outcome?_eq_none_iff now).mp hout⟩
        | some out =>
            simp only [Leg.landed, Leg.timers, hf, Option.bind_some, hout]
            exact ⟨List.nil_sublist _, fun t ht => absurd ht List.not_mem_nil⟩

/-- Calls that are looked at have no timer left that is due. -/
theorem landLegs_timers (r : Rehearsal) (legs : List Leg) (hdistinct : (numbersOf legs).Nodup) :
    ((r.landLegs legs).2.flatMap (Leg.timers (r.landLegs legs).1.board.flight?)).Sublist
        (legs.flatMap (Leg.timers r.board.flight?))
      ∧ ∀ t ∈ (r.landLegs legs).2.flatMap (Leg.timers (r.landLegs legs).1.board.flight?),
        r.now < t.due := by
  rcases landLegs_map r legs hdistinct with ⟨hmap, hkept⟩
  rw [timers_congr _ hkept, hmap, List.flatMap_map]
  refine ⟨flatMap_sublist_flatMap legs fun leg _ => (landed_timers _ r.now leg).1, fun t ht => ?_⟩
  rcases List.mem_flatMap.mp ht with ⟨leg, _, ht⟩
  exact (landed_timers _ r.now leg).2 t ht

/-- The layers around the interface give a request up that is late. -/
theorem work_of_late (r : Rehearsal) (legs : List Leg) (purpose : Purpose) (visit : Visit)
    (h : r.envelope.isSome) (hlate : r.isLate visit = true) :
    ∃ outcome, (r.work (.calls legs purpose (some visit))).2 = .inl outcome := by
  rcases Option.isSome_iff_exists.mp h with ⟨e, henvelope⟩
  simp only [work, henvelope, hlate]
  exact ⟨_, rfl⟩

theorem finishServing_timers (r : Rehearsal) (limit : Timer) (h : r.stage ≠ some .draining) :
    (r.finishServing limit).1.timersAt (progressOf (r.finishServing limit).2) = [] := by
  unfold finishServing
  split
  · exact if_neg h
  · rfl

/-- What is left of something that has worked has some of the timers that it had, and none that is
    due. -/
theorem work_timers (r : Rehearsal) (errand : Errand) (hdistinct : errand.numbers.Nodup)
    (hlimit : errand.limit?.isSome → r.envelope.isSome) :
    ((r.work errand).1.timersAt (progressOf (r.work errand).2)).Sublist (r.timers errand)
      ∧ ∀ t ∈ (r.work errand).1.timersAt (progressOf (r.work errand).2), r.now < t.due := by
  -- Something that has ended has no timers.
  have hended : ∀ ts : List Timer, ts = [] →
      ts.Sublist (r.timers errand) ∧ ∀ t ∈ ts, r.now < t.due := by
    rintro ts rfl
    exact ⟨List.nil_sublist _, fun t ht => absurd ht List.not_mem_nil⟩
  cases errand with
  | calls legs purpose visit =>
      have hland := landLegs_timers r legs hdistinct
      cases visit with
      | none =>
          simp only [work]
          split
          · exact hended _ rfl
          · exact hland
      | some visit =>
          rcases work_visit_cases r legs purpose visit with
            ⟨e, _, _, hwork⟩ | ⟨outcomes, _, hwork⟩ | hwork
          · rw [hwork]
            exact hended _ rfl
          · rw [hwork]
            exact hended _ rfl
          · -- It waits on, so it is not late.
            have hlimitLater : ∀ t ∈ visit.limit.toList, r.now < t.due := by
              intro t ht
              have hvisit : visit.limit = some t := by simpa using ht
              refine Nat.lt_of_not_le fun hdue => ?_
              have hlate : r.isLate visit = true := by
                simp only [isLate, hvisit, decide_eq_true hdue]
              have hsome := hlimit (Option.isSome_iff_exists.mpr ⟨t, hvisit⟩)
              rcases work_of_late r legs purpose visit hsome hlate with ⟨outcome, hout⟩
              rw [hwork] at hout
              contradiction
            rw [hwork]
            refine ⟨(List.Sublist.refl _).append hland.1, fun t ht => ?_⟩
            rcases List.mem_append.mp ht with ht | ht
            · exact hlimitLater t ht
            · exact hland.2 t ht
  | letGo name timer =>
      simp only [work]
      split
      · split <;> exact hended _ rfl
      · rename_i hdue
        refine ⟨List.Sublist.refl _, fun t ht => ?_⟩
        rw [List.mem_singleton.mp ht]
        exact Nat.lt_of_not_le hdue
  | drain limit =>
      simp only [work]
      split
      · exact hended _ rfl
      · split
        · exact hended _ rfl
        · rename_i hdue
          refine ⟨List.Sublist.refl _, fun t ht => ?_⟩
          rw [List.mem_singleton.mp ht]
          exact Nat.lt_of_not_le hdue
  | shutdown limit =>
      simp only [work]
      split
      · rename_i hstage
        split
        · -- It drains no more.
          refine hended _ (finishServing_timers _ limit fun hdrains => ?_)
          have hoccur := occur_of_stage (r.withLifecycle r.lifecycle.settle.1) .idle .draining
            hstage
          exact absurd (Option.some.inj (hoccur.stage hdrains)) (by decide)
        · split
          · exact hended _ rfl
          · rename_i hdue
            refine ⟨List.Sublist.refl _, fun t ht => ?_⟩
            have htimers : r.timers (.shutdown limit) = [limit] := if_pos hstage
            have hmem : t ∈ [limit] := htimers ▸ ht
            rw [List.mem_singleton.mp hmem]
            exact Nat.lt_of_not_le hdue
      · rename_i hstage
        refine hended _ (finishServing_timers r limit ?_)
        rw [hstage]
        decide
      · exact hended _ rfl

/-- Something that does not work itself has some of the timers that it had. -/
theorem timersAt_of_spared (hsteady : Steady r s) (p : Progress)
    (hflights : ∀ m ∈ p.numbers, s.board.flight? m = r.board.flight? m) :
    (s.timersAt p).Sublist (r.timersAt p) := by
  cases p with
  | running errand =>
      cases errand with
      | calls legs purpose visit =>
          rw [timersAt, timersAt, timers_calls, timers_calls, timers_congr legs hflights]
      | letGo name timer | drain limit => exact List.Sublist.refl _
      | shutdown limit =>
          simp only [timersAt, timers]
          by_cases hdrains : s.stage = some .draining
          · rw [if_pos hdrains, if_pos (hsteady.stage hdrains)]
          · rw [if_neg hdrains]
            exact List.nil_sublist _
  | ended outcome | givenUp | taken => exact List.Sublist.refl _

/-! ## Running -/

/-- Everybody has some of the timers that it had. -/
structure Quieter (r s : Rehearsal) : Prop where
  length : s.activities.length = r.activities.length
  timers : ∀ n, (s.timersOf n).Sublist (r.timersOf n)

theorem Quieter.refl (r : Rehearsal) : Quieter r r :=
  ⟨rfl, fun _ => List.Sublist.refl _⟩

theorem Quieter.trans (h : Quieter r s) (h' : Quieter s t) : Quieter r t :=
  ⟨h'.length.trans h.length, fun n => (h'.timers n).trans (h.timers n)⟩

theorem run_of_no_errand (r : Rehearsal) (n : Nat) (h : r.errand? n = none) : r.run n = r := by
  unfold run
  rw [h]

theorem timersOf_of_no_errand (r : Rehearsal) (n : Nat) (h : r.errand? n = none) :
    r.timersOf n = [] := by
  unfold errand? activity? at h
  unfold timersOf
  cases ha : r.activities[n]? with
  | none => rfl
  | some a =>
      rcases a with ⟨name, progress⟩
      rw [ha] at h
      cases progress with
      | running errand => exact absurd h (Option.some_ne_none errand)
      | ended outcome | givenUp | taken => rfl

/-- An activity that has run has no timer left that is due, and nobody has more timers than
    before. -/
theorem run_timers (r : Rehearsal) (hr : Reachable r) (n : Nat) :
    Quieter r (r.run n) ∧ (r.run n).now = r.now ∧ r.ready <+: (r.run n).ready
      ∧ ∀ t ∈ (r.run n).timersOf n, r.now < t.due := by
  cases herrand : r.errand? n with
  | none =>
      rw [run_of_no_errand r n herrand]
      refine ⟨.refl r, rfl, List.prefix_rfl, fun t ht => ?_⟩
      rw [timersOf_of_no_errand r n herrand] at ht
      exact absurd ht List.not_mem_nil
  | some errand =>
      rcases run_of_errand r n errand herrand with ⟨ready, hready, hrun⟩
      rcases activity?_of_errand? r n errand herrand with ⟨name, ha⟩
      have horderly := orderly_of_reachable r hr
      have hsteady := work_steady r errand
      have hset := setProgress_of_activity r (r.work errand).1 n (progressOf (r.work errand).2) _ ha
        hsteady.activities
      have hn : n < r.activities.length := (List.getElem?_eq_some_iff.mp ha).1
      rcases work_timers r errand (horderly.distinct_of_activity ha) fun hlimit =>
        limited_of_reachable r hr _ (List.mem_of_getElem? ha) hlimit with ⟨hsublist, hlater⟩
      have hself : (r.run n).timersOf n
          = (r.work errand).1.timersAt (progressOf (r.work errand).2) := by
        rw [hrun, hset]
        simp only [timersOf, List.getElem?_set_self hn]
        rfl
      refine ⟨⟨?_, fun m => ?_⟩, ?_, ?_, ?_⟩
      · rw [hrun, hset]
        exact List.length_set
      · by_cases hm : m = n
        · rw [hm, hself]
          simp only [timersOf, ha]
          exact hsublist
        · -- The flights of another activity are other ones.
          rw [hrun, hset]
          simp only [timersOf, List.getElem?_set_ne (Ne.symm hm)]
          cases hb : r.activities[m]? with
          | none => exact List.Sublist.refl _
          | some b =>
              exact timersAt_of_spared hsteady b.progress fun k hk =>
                (work_spares r errand).1.kept k (horderly.disjoint hb ha hm k hk)
      · rw [hrun, hset]
        exact hsteady.now
      · rw [hrun]
        exact hready
      · rw [hself]
        exact hlater

/-- Once everything woken has run, none of it has a timer that is due. -/
theorem runReady_timers (fuel : Nat) (r : Rehearsal) (hr : Reachable r) :
    Quieter r (runReady fuel r) ∧ (runReady fuel r).now = r.now
      ∧ ∀ i n, i < fuel → r.ready[i]? = some n →
        ∀ t ∈ (runReady fuel r).timersOf n, r.now < t.due := by
  induction fuel generalizing r with
  | zero => exact ⟨.refl r, rfl, fun i n hi => absurd hi (Nat.not_lt_zero i)⟩
  | succ fuel ih =>
      unfold runReady
      cases hready : r.ready with
      | nil => exact ⟨.refl r, rfl, fun i n _ hi => absurd hi (Option.some_ne_none n).symm⟩
      | cons first rest =>
          have hqueued : Reachable { r with ready := rest } :=
            hr.reaches (Turn.queue r rest).reaches
          have hreached := hqueued.reaches (run_reaches { r with ready := rest } first)
          rcases run_timers { r with ready := rest } hqueued first with
            ⟨hquieter, hnow, hprefix, hfirst⟩
          rcases ih _ hreached with ⟨hrest, hnowAfter, hothers⟩
          have hboth : Quieter r (runReady fuel (run { r with ready := rest } first)) := by
            have hall := hquieter.trans hrest
            exact ⟨hall.length, hall.timers⟩
          refine ⟨hboth, hnowAfter.trans hnow, fun i n hi hn t ht => ?_⟩
          cases i with
          | zero =>
              -- What has run first has no more timers after the others have run.
              rw [List.getElem?_cons_zero] at hn
              rw [← Option.some.inj hn] at ht
              exact hfirst t ((hrest.timers first).subset ht)
          | succ i =>
              rw [List.getElem?_cons_succ] at hn
              have hlt : i < rest.length := (List.getElem?_eq_some_iff.mp hn).1
              have hkept : (run { r with ready := rest } first).ready[i]? = some n := by
                rw [← hn]
                exact (List.prefix_iff_getElem?.mp hprefix i hlt).trans
                  (List.getElem?_eq_getElem hlt).symm
              have hdue := hothers i n (by omega) hkept t ht
              rw [hnow] at hdue
              exact hdue

/-- Everything that was woken has run when things have settled. -/
theorem settle_timers (r : Rehearsal) (hr : Reachable r) :
    Quieter r r.settle ∧ r.settle.now = r.now
      ∧ ∀ n ∈ r.ready, ∀ t ∈ r.settle.timersOf n, r.now < t.due := by
  rcases runReady_timers (r.ready.length + (r.activities.length + 1) * (r.activities.length + 1)) r hr
    with ⟨hquieter, hnow, hrested⟩
  refine ⟨hquieter, hnow, fun n hn => ?_⟩
  rcases List.mem_iff_getElem?.mp hn with ⟨i, hi⟩
  have hlt := (List.getElem?_eq_some_iff.mp hi).1
  exact hrested i n (by omega) hi

/-! ## Moving the Clock -/

theorem timersOf_eq (r : Rehearsal) (n : Nat) :
    r.timersOf n = match r.errand? n with
      | some errand => r.timers errand
      | none => [] := by
  cases h : r.errand? n with
  | none => exact timersOf_of_no_errand r n h
  | some errand =>
      rcases activity?_of_errand? r n errand h with ⟨name, ha⟩
      unfold timersOf
      rw [ha]
      rfl

theorem allTimers_eq (r : Rehearsal) :
    r.allTimers
      = (List.range r.activities.length).flatMap fun n => (r.timersOf n).map (·, n) := by
  unfold allTimers
  refine List.flatMap_congr fun n _ => ?_
  rw [timersOf_eq]
  cases r.errand? n <;> rfl

theorem mem_allTimers (r : Rehearsal) (t : Timer) (n : Nat) :
    (t, n) ∈ r.allTimers ↔ t ∈ r.timersOf n := by
  rw [allTimers_eq]
  simp only [List.mem_flatMap, List.mem_range, List.mem_map, Prod.mk.injEq]
  constructor
  · rintro ⟨m, _, u, hu, rfl, rfl⟩
    exact hu
  · intro ht
    refine ⟨n, ?_, t, ht, rfl, rfl⟩
    -- Only what was started has timers.
    by_contra hn
    unfold timersOf at ht
    rw [List.getElem?_eq_none (Nat.le_of_not_lt hn)] at ht
    exact absurd ht List.not_mem_nil

theorem Quieter.allTimers (h : Quieter r s) : s.allTimers.Sublist r.allTimers := by
  rw [allTimers_eq, allTimers_eq, h.length]
  exact flatMap_sublist_flatMap _ fun n _ => (h.timers n).map (·, n)

theorem first?_cons_cons (b u : Timer) (ts : List Timer) :
    Timer.first? (b :: u :: ts) = Timer.first? ((if u.before b then u else b) :: ts) := by
  unfold Timer.first?
  simp only [List.foldl_cons]
  split <;> rfl

/-- The timer that rings first is one of those there are, and none of them is due before it. -/
theorem first?_cons (b : Timer) (ts : List Timer) :
    ∃ t, Timer.first? (b :: ts) = some t ∧ t ∈ b :: ts ∧ ∀ u ∈ b :: ts, t.due ≤ u.due := by
  induction ts generalizing b with
  | nil =>
      refine ⟨b, rfl, List.mem_cons_self, fun u hu => ?_⟩
      exact Nat.le_of_eq (congrArg Timer.due (List.mem_singleton.mp hu).symm)
  | cons u ts ih =>
      -- Of the first two timers the one that rings first takes the place of both.
      rw [first?_cons_cons]
      generalize hc : (if u.before b then u else b) = c
      have hfirst : c ∈ [b, u] ∧ c.due ≤ b.due ∧ c.due ≤ u.due := by
        by_cases hbefore : u.before b = true
        · rw [if_pos hbefore] at hc
          simp only [Timer.before, Bool.or_eq_true, Bool.and_eq_true, decide_eq_true_eq,
            beq_iff_eq] at hbefore
          rw [← hc]
          exact ⟨List.mem_cons_of_mem b List.mem_cons_self, by omega, Nat.le_refl _⟩
        · rw [if_neg hbefore] at hc
          simp only [Timer.before, Bool.or_eq_true, Bool.and_eq_true, decide_eq_true_eq,
            beq_iff_eq, not_or, not_and] at hbefore
          rw [← hc]
          exact ⟨List.mem_cons_self, Nat.le_refl _, by omega⟩
      rcases hfirst with ⟨hmem, hb, hu⟩
      rcases ih c with ⟨t, ht, hin, hle⟩
      have hself := hle c List.mem_cons_self
      refine ⟨t, ht, ?_, fun v hv => ?_⟩
      · rcases List.mem_cons.mp hin with hin | hin
        · exact hin ▸ List.mem_append_left ts hmem
        · exact List.mem_append_right [b, u] hin
      · rcases List.mem_cons.mp hv with hv | hv
        · exact hv ▸ Nat.le_trans hself hb
        · rcases List.mem_cons.mp hv with hv | hv
          · exact hv ▸ Nat.le_trans hself hu
          · exact hle v (List.mem_cons_of_mem c hv)

/-- Something is due next if there are timers, and nothing is due before it. -/
theorem nextDue?_spec (r : Rehearsal) :
    (r.nextDue? = none ↔ r.allTimers = [])
      ∧ ∀ d, r.nextDue? = some d →
        (∃ n, ∃ t ∈ r.timersOf n, t.due = d) ∧ ∀ n, ∀ t ∈ r.timersOf n, d ≤ t.due := by
  unfold nextDue?
  rcases hall : r.allTimers with _ | ⟨e, rest⟩
  · exact ⟨⟨fun _ => rfl, fun _ => rfl⟩, fun d hd => absurd hd (Option.some_ne_none d).symm⟩
  · rcases first?_cons e.1 (rest.map Prod.fst) with ⟨t, ht, hmem, hle⟩
    rw [List.map_cons, ht]
    refine ⟨⟨fun hnone => absurd hnone (Option.some_ne_none _),
      fun hnil => absurd hnil (List.cons_ne_nil _ _)⟩, fun d hd => ?_⟩
    rw [← Option.some.inj hd]
    rw [← List.map_cons, ← hall] at hmem hle
    rcases List.mem_map.mp hmem with ⟨⟨u, n⟩, hu, rfl⟩
    refine ⟨⟨n, u, (mem_allTimers r u n).mp hu, rfl⟩, fun m v hv => hle v ?_⟩
    exact List.mem_map.mpr ⟨(v, m), (mem_allTimers r v m).mpr hv, rfl⟩

/-- Everything that is due is woken. -/
theorem mem_ring (r : Rehearsal) (front : Option Nat) (n : Nat) (t : Timer)
    (ht : t ∈ r.timersOf n) (hdue : t.due ≤ r.now) : n ∈ (r.ring front).ready := by
  have hmem := (mem_allTimers r t n).mpr ht
  simp only [ring, List.partition_eq_filter_filter, List.mem_append, List.mem_filter,
    List.mem_eraseDups, List.mem_map, List.mem_mergeSort, decide_eq_true_eq]
  by_cases hfront : (front == some n) = true
  · exact Or.inl (Or.inr ⟨⟨(t, n), ⟨hmem, hdue⟩, rfl⟩, hfront⟩)
  · refine Or.inr ⟨⟨(t, n), ⟨hmem, hdue⟩, rfl⟩, ?_⟩
    simpa using hfront

/-- A move of the clock goes to the time at which something is due next, and then nothing is due any
    more. Nobody has more timers than before. -/
theorem tick?_timers (r : Rehearsal) (hr : Reachable r) (front limit : Option Nat)
    (h : r.tick? front limit = some s) :
    Quieter r s ∧ ∃ d, r.nextDue? = some d ∧ s.now = max r.now d
      ∧ ∀ n, ∀ t ∈ s.timersOf n, s.now < t.due := by
  unfold tick? at h
  cases hdue : r.nextDue? with
  | none =>
      rw [hdue] at h
      contradiction
  | some d =>
      rw [hdue] at h
      simp only at h
      split at h
      · contradiction
      · have hrung : Reachable (({ r with now := max r.now d } : Rehearsal).ring front) :=
          hr.reaches ((Turn.clock r (max r.now d)).reaches.trans (Turn.queue _ _).reaches)
        rcases settle_timers _ hrung with ⟨hquieter, hnow, hrested⟩
        rw [← Option.some.inj h]
        refine ⟨⟨hquieter.length, hquieter.timers⟩, d, rfl, hnow, fun n t ht => ?_⟩
        rw [hnow]
        refine Nat.lt_of_not_le fun hlate => ?_
        -- Were it due, its owner would have been woken.
        have hwoken := mem_ring { r with now := max r.now d } front n t
          ((hquieter.timers n).subset ht) hlate
        exact Nat.not_le_of_lt (hrested n hwoken t ht) hlate

/-- Each move of the clock uses timers up. -/
theorem tick?_fewer (r : Rehearsal) (hr : Reachable r) (front limit : Option Nat)
    (h : r.tick? front limit = some s) : s.allTimers.length < r.allTimers.length := by
  rcases tick?_timers r hr front limit h with ⟨hquieter, d, hd, hnow, hrest⟩
  have hsublist := hquieter.allTimers
  refine Nat.lt_of_le_of_ne hsublist.length_le fun hsame => ?_
  -- The timer that was due first is gone.
  rcases ((nextDue?_spec r).2 d hd).1 with ⟨n, t, ht, hdue⟩
  have hkept := (mem_allTimers r t n).mpr ht
  rw [← hsublist.eq_of_length hsame, mem_allTimers] at hkept
  have hlt := hrest n t hkept
  rw [hnow, hdue] at hlt
  omega

end Parts

end Rehearsal

end Gateway
