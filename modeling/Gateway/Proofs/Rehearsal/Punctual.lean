import Gateway.Proofs.Rehearsal.Timers

/-!
# Nothing That Is Due Is Passed Over

What a call comes to depends on when it is looked at: an answer that comes after the time limit
counts if nobody looked in between. A rehearsal always does look in between, as its clock stops at
every time at which something is due. Turns in general may set the clock to any time, so here are
those that may not: a turn is punctual if the clock does not pass a timer that somebody has.

Every step is a number of punctual turns, in none of which the clock goes back (`step_forth`). For
the moves of the clock from one timer to the next that is clear. When time is let pass up to a given
moment the clock is set to that moment in the end, and this is punctual because the moves before it
went on until nothing more was due by then: there are fewer timers after each, and the moves are as
many as there were timers.

For the same reason waiting for an activity comes to an end. It has ended, or nothing is due any
more that could change it (`awaitFor_ends`). And as long as it has a timer, waiting does not go
beyond that (`awaitFor_now_le`).

## Main definitions

* `Rehearsal.Punctual`, `Rehearsal.OnTime`: Turns that pass no timer, and any number of them.
* `Rehearsal.Onward`, `Rehearsal.Forth`: Those of them in which the clock does not go back.

## Theorems

* `Rehearsal.passage_forth`: What happens at one time, and the moves of the clock, are punctual.
* `Rehearsal.advance_forth`, `Rehearsal.step_forth`: Every step is a number of punctual turns.
* `Rehearsal.awaitFor_ends`, `Rehearsal.awaitFor_now_le`: Waiting comes to an end, and when.
-/

namespace Gateway

namespace Rehearsal

/-- A turn in which the clock does not pass a timer that somebody has. -/
def Punctual (r s : Rehearsal) : Prop :=
  Turn r s ∧ ∀ n, ∀ t ∈ r.timersOf n, s.now ≤ max r.now t.due

/-- A rehearsal becomes another in any number of punctual turns. -/
def OnTime : Rehearsal → Rehearsal → Prop :=
  Relation.ReflTransGen Punctual

/-- A punctual turn in which the clock does not go back. -/
def Onward (r s : Rehearsal) : Prop :=
  Punctual r s ∧ r.now ≤ s.now

/-- A rehearsal goes on for any number of turns. -/
def Forth : Rehearsal → Rehearsal → Prop :=
  Relation.ReflTransGen Onward

section Turns

variable {r s : Rehearsal}

theorem OnTime.reaches (h : OnTime r s) : Reaches r s :=
  Relation.ReflTransGen.mono (fun _ _ hpunctual => hpunctual.1) _ _ h

theorem Forth.onTime (h : Forth r s) : OnTime r s :=
  Relation.ReflTransGen.mono (fun _ _ honward => honward.1) _ _ h

theorem Forth.reaches (h : Forth r s) : Reaches r s :=
  OnTime.reaches h.onTime

/-- A turn is punctual, and goes on, if the clock stands still in it. -/
theorem Turn.forth (h : Turn r s) (hnow : s.now = r.now) : Forth r s := by
  refine Relation.ReflTransGen.single ⟨⟨h, fun n t _ => ?_⟩, Nat.le_of_eq hnow.symm⟩
  rw [hnow]
  exact Nat.le_max_left _ _

theorem setProgress_now (n : Nat) (p : Progress) (h : s.now = r.now) :
    (s.setProgress n p).now = r.now :=
  (setProgress_keeps s n p).1.trans h

theorem passage_forth : Passage Forth where
  refl _ := Relation.ReflTransGen.refl
  trans := Relation.ReflTransGen.trans
  enlist r name c := (Turn.enlist r name c).forth (start_fixed r c).now
  work r n errand h :=
    (Turn.work r n errand h).forth (setProgress_now n _ (work_steady r errand).now)
  release r n errand h :=
    (Turn.release r n errand h).forth (setProgress_now n _ (release_steady r errand).now)
  take r n a ha h := (Turn.take r n a ha h).forth (setProgress_now n _ rfl)
  queue r ready := (Turn.queue r ready).forth rfl
  clock r d h := by
    -- Nothing is due before what is due next.
    have hle := ((nextDue?_spec r).2 d h).2
    refine Relation.ReflTransGen.single ⟨⟨Turn.clock r _, fun n t ht => ?_⟩, Nat.le_max_left _ _⟩
    have hdue := hle n t ht
    simp only
    omega

theorem passage_onTime : Passage OnTime where
  refl _ := Relation.ReflTransGen.refl
  trans := Relation.ReflTransGen.trans
  enlist r name c := (passage_forth.enlist r name c).onTime
  work r n errand h := (passage_forth.work r n errand h).onTime
  release r n errand h := (passage_forth.release r n errand h).onTime
  take r n a ha h := (passage_forth.take r n a ha h).onTime
  queue r ready := (passage_forth.queue r ready).onTime
  clock r d h := (passage_forth.clock r d h).onTime

/-! ## Letting Time Pass -/

/-- The clock is not moved if there is nothing that is due by then. -/
theorem lt_of_tick?_eq_none (r : Rehearsal) (front : Option Nat) (bound d : Nat)
    (h : r.tick? front (some bound) = none) (hd : r.nextDue? = some d) : bound < d := by
  unfold tick? at h
  rw [hd] at h
  simp only [Option.any_some, decide_eq_true_eq] at h
  by_contra hle
  rw [if_neg hle] at h
  exact absurd h (Option.some_ne_none _)

/-- The moves of the clock go on until nothing more is due by then. -/
theorem tickUntil_ends (fuel bound : Nat) (r : Rehearsal) (hr : Reachable r)
    (hfuel : r.allTimers.length < fuel) :
    (tickUntil fuel bound r).tick? none (some bound) = none := by
  induction fuel generalizing r with
  | zero => exact absurd hfuel (Nat.not_lt_zero _)
  | succ fuel ih =>
      unfold tickUntil
      cases htick : r.tick? none (some bound) with
      | none => exact htick
      | some s =>
          have hfewer := tick?_fewer r hr none (some bound) htick
          have hs := hr.reaches (passage_reaches.toCourse.tick? r s none (some bound) htick)
          exact ih s hs (by omega)

/-- Once the moves of the clock up to a time have come to an end, nothing is due by then any
    more. -/
theorem tickUntil_timers (fuel bound : Nat) (r : Rehearsal) (hr : Reachable r)
    (hfuel : r.allTimers.length < fuel) :
    ∀ n, ∀ t ∈ (tickUntil fuel bound r).timersOf n, bound < t.due := by
  intro n t ht
  have hends := tickUntil_ends fuel bound r hr hfuel
  generalize tickUntil fuel bound r = s at hends ht
  -- There is a timer, so something is due next, and that is later.
  cases hd : s.nextDue? with
  | none =>
      have hnone := (nextDue?_spec s).1.mp hd
      have hmem := (mem_allTimers s t n).mpr ht
      rw [hnone] at hmem
      exact absurd hmem List.not_mem_nil
  | some d =>
      have hlt := lt_of_tick?_eq_none s none bound d hends hd
      exact Nat.lt_of_lt_of_le hlt (((nextDue?_spec s).2 d hd).2 n t ht)

/-- Once time has been let pass, nothing is due that was due by then. -/
theorem advance_timers (r : Rehearsal) (hr : Reachable r) (ms : Nat) :
    ∀ k, ∀ t ∈ (r.advance ms).timersOf k, r.now + ms < t.due :=
  tickUntil_timers _ _ r hr (Nat.lt_succ_self _)

/-- The clock is not moved beyond the time that it is to go to. -/
theorem tickUntil_now_le (fuel bound : Nat) (r : Rehearsal) (hr : Reachable r)
    (hnow : r.now ≤ bound) : (tickUntil fuel bound r).now ≤ bound := by
  induction fuel generalizing r with
  | zero => exact hnow
  | succ fuel ih =>
      unfold tickUntil
      cases htick : r.tick? none (some bound) with
      | none => exact hnow
      | some s =>
          have hs := hr.reaches (passage_reaches.toCourse.tick? r s none (some bound) htick)
          rcases tick?_timers r hr none (some bound) htick with ⟨_, d, hd, hnow', _⟩
          have hle : d ≤ bound := by
            by_contra hlt
            unfold tick? at htick
            rw [hd] at htick
            simp only [Option.any_some, decide_eq_true_eq] at htick
            rw [if_pos (Nat.lt_of_not_le hlt)] at htick
            exact absurd htick.symm (Option.some_ne_none _)
          exact ih s hs (by omega)

theorem advance_forth (r : Rehearsal) (hr : Reachable r) (ms : Nat) : Forth r (r.advance ms) := by
  have hmoves : Forth r (tickUntil (r.allTimers.length + 1) (r.now + ms) r) :=
    passage_forth.toCourse.tickUntil _ _ r
  have hlater := tickUntil_timers (r.allTimers.length + 1) (r.now + ms) r hr (Nat.lt_succ_self _)
  have hbound := tickUntil_now_le (r.allTimers.length + 1) (r.now + ms) r hr (Nat.le_add_right _ _)
  unfold advance
  refine hmoves.tail ⟨⟨Turn.clock _ _, fun n t ht => ?_⟩, hbound⟩
  have hlt := hlater n t ht
  simp only
  omega

/-- Every step is a number of punctual turns in which the clock does not go back. -/
theorem step_forth (r : Rehearsal) (hr : Reachable r) (s : Step) : Forth r (r.step s).1 :=
  passage_forth.step r s fun ms _ => advance_forth r hr ms

/-! ## Waiting -/

/-- Waiting goes on until there is nothing left to wait for, or nothing that is due. -/
theorem awaitFor_ends (front : Option Nat) (fuel n : Nat) (r : Rehearsal) (hr : Reachable r)
    (hfuel : r.allTimers.length < fuel) :
    (awaitFor front fuel n r).errand? n = none
      ∨ (awaitFor front fuel n r).allTimers = [] := by
  induction fuel generalizing r with
  | zero => exact absurd hfuel (Nat.not_lt_zero _)
  | succ fuel ih =>
      unfold awaitFor
      cases herrand : r.errand? n with
      | none => exact Or.inl herrand
      | some errand =>
          cases htick : r.tick? front none with
          | none =>
              right
              -- Without a limit the clock is moved whenever something is due.
              refine (nextDue?_spec r).1.mp ?_
              unfold tick? at htick
              cases hd : r.nextDue? with
              | none => rfl
              | some d =>
                  rw [hd] at htick
                  exact absurd htick (Option.some_ne_none _)
          | some s =>
              have hfewer := tick?_fewer r hr front none htick
              have hs := hr.reaches (passage_reaches.toCourse.tick? r s front none htick)
              exact ih s hs (by omega)

/-- Waiting for something goes no further than a time at which it still has a timer to wait for. -/
theorem awaitFor_now_le (front : Option Nat) (fuel k bound : Nat) (r : Rehearsal) (hr : Reachable r)
    (hnow : r.now ≤ bound)
    (htimer : ∀ s, Forth r s → s.errand? k ≠ none → ∃ t ∈ s.timersOf k, t.due ≤ bound) :
    (awaitFor front fuel k r).now ≤ bound := by
  induction fuel generalizing r with
  | zero => exact hnow
  | succ fuel ih =>
      unfold awaitFor
      cases herrand : r.errand? k with
      | none => exact hnow
      | some errand =>
          cases htick : r.tick? front none with
          | none => exact hnow
          | some s =>
              have hforth : Forth r s := passage_forth.toCourse.tick? r s front none htick
              rcases tick?_timers r hr front none htick with ⟨_, d, hd, hnow', _⟩
              -- It has a timer, and nothing is due before what is due next.
              have hruns : r.errand? k ≠ none := herrand ▸ Option.some_ne_none errand
              rcases htimer r Relation.ReflTransGen.refl hruns with ⟨t, ht, hdue⟩
              have hle := ((nextDue?_spec r).2 d hd).2 k t ht
              exact ih s (hr.reaches hforth.reaches) (by omega) fun u hu =>
                htimer u (hforth.trans hu)

end Turns

end Rehearsal

end Gateway
