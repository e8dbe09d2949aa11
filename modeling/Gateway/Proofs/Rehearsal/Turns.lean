import Mathlib.Logic.Relation
import Gateway.Rehearsal

/-!
# Turns of a Rehearsal

A rehearsal does a step as a whole: it starts a command, lets everything run that is woken, moves
the clock, and takes the outcome. What holds in every state has to be shown for states in between
as well, as one activity may be half way when another is looked at. So a step is taken apart here
into turns, the smallest changes after which each activity stands where its progress says.

Turns may come in any order. An activity may be run whether or not it was woken, the clock may be
set to any time, and what is in the queue of the woken is of no account. That is more than a
rehearsal ever does, and more than the statements about turns need to know of it: every step is a
number of turns (`step_reaches`), so what every turn keeps is kept by every step. The taking apart
is done once, for any relation that the turns are in (`Rehearsal.Passage`), or only those of them
that come by themselves (`Rehearsal.Course`), as it serves for more than what is reachable.

## Main definitions

* `Rehearsal.enlist`, `Rehearsal.release`: Starting a command and giving an activity up, before
  anything else runs.
* `Rehearsal.Turn`, `Rehearsal.Reaches`: The turns, and any number of them.
* `Rehearsal.Reachable`: The states that a rehearsal comes to.
* `Rehearsal.Course`, `Rehearsal.Passage`: Relations that hold through turns.

## Theorems

* `Rehearsal.Passage.step`: A step taken apart.
* `Rehearsal.step_reaches`, `Rehearsal.conclude_reaches`: Every step is a number of turns.
-/

namespace Gateway

namespace Rehearsal

/-- How something that was started stands at first. -/
def progressOf : Upshot ⊕ Errand → Progress
  | .inl outcome => .ended outcome
  | .inr errand => .running errand

/-- Starts a command as an activity, and lets nothing else run. -/
def enlist (r : Rehearsal) (name : Option String) (c : Command) : Rehearsal :=
  { (r.start c).1 with
    activities := (r.start c).1.activities ++ [⟨name, progressOf (r.start c).2⟩] }

/-- What giving an activity up does to its calls and its request. -/
def release (r : Rehearsal) : Errand → Rehearsal
  | .calls legs _ none => r.abandonLegs legs
  | .calls legs _ (some visit) => r.withdraw legs visit
  | _ => r

/-- The smallest changes of a rehearsal. -/
inductive Turn : Rehearsal → Rehearsal → Prop
  /-- A command is started. -/
  | enlist (r : Rehearsal) (name : Option String) (c : Command) : Turn r (r.enlist name c)
  /-- An activity that runs does what it can. -/
  | work (r : Rehearsal) (n : Nat) (errand : Errand) (h : r.errand? n = some errand) :
      Turn r ((r.work errand).1.setProgress n (progressOf (r.work errand).2))
  /-- An activity that runs is given up. -/
  | release (r : Rehearsal) (n : Nat) (errand : Errand) (h : r.errand? n = some errand) :
      Turn r ((r.release errand).setProgress n .givenUp)
  /-- The outcome of an activity that does not run is taken. -/
  | take (r : Rehearsal) (n : Nat) (a : Activity) (ha : r.activities[n]? = some a)
      (h : r.errand? n = none) : Turn r (r.setProgress n .taken)
  /-- Something occurs to the server. -/
  | occur (r : Rehearsal) (o : Server.Occurrence) : Turn r (r.occur o)
  /-- The clock is set. -/
  | clock (r : Rehearsal) (now : Nat) : Turn r { r with now := now }
  /-- The clock on the wall is set. -/
  | wall (r : Rehearsal) (wall : Nat) : Turn r { r with api := { r.api with wall := wall } }
  /-- What is woken changes. -/
  | queue (r : Rehearsal) (ready : List Nat) : Turn r { r with ready := ready }

/-- A rehearsal becomes another in any number of turns. -/
def Reaches : Rehearsal → Rehearsal → Prop :=
  Relation.ReflTransGen Turn

/-- Nothing was started yet. -/
def IsFresh (r : Rehearsal) : Prop :=
  r.activities = [] ∧ r.held = [] ∧ r.lifecycle = .new ∧ r.board.flights = []

/-- The states that turns lead to from a fresh rehearsal. -/
def Reachable (r : Rehearsal) : Prop :=
  ∃ s, s.IsFresh ∧ Reaches s r

theorem Reaches.trans {r s t : Rehearsal} (h : Reaches r s) (h' : Reaches s t) : Reaches r t :=
  Relation.ReflTransGen.trans h h'

theorem Turn.reaches {r s : Rehearsal} (h : Turn r s) : Reaches r s :=
  Relation.ReflTransGen.single h

theorem Reachable.reaches {r s : Rehearsal} (h : Reachable r) (hreaches : Reaches r s) :
    Reachable s := by
  rcases h with ⟨first, hfresh, hfirst⟩
  exact ⟨first, hfresh, hfirst.trans hreaches⟩

theorem launch_eq (r : Rehearsal) (name : Option String) (c : Command) :
    r.launch name c = (r.enlist name c).settle := by
  unfold launch enlist
  rcases r.start c with ⟨s, outcome | errand⟩ <;> rfl

theorem errand?_eq_none (r : Rehearsal) (n : Nat) (a : Activity) (h : r.activity? n = some a)
    (hidle : ∀ errand, a.progress ≠ .running errand) : r.errand? n = none := by
  rcases a with ⟨name, progress⟩
  unfold errand?
  rw [h]
  cases progress with
  | running errand => exact absurd rfl (hidle errand)
  | ended outcome | givenUp | taken => rfl

/-- A relation between what a rehearsal is before and after the turns that come by themselves, with
    nothing started, given up or taken. Of the moves of the clock these are the ones to the time at
    which something is due next. -/
structure Course (R : Rehearsal → Rehearsal → Prop) : Prop where
  refl (r : Rehearsal) : R r r
  trans {r s t : Rehearsal} : R r s → R s t → R r t
  work (r : Rehearsal) (n : Nat) (errand : Errand) (h : r.errand? n = some errand) :
    R r ((r.work errand).1.setProgress n (progressOf (r.work errand).2))
  queue (r : Rehearsal) (ready : List Nat) : R r { r with ready := ready }
  clock (r : Rehearsal) (d : Nat) (h : r.nextDue? = some d) : R r { r with now := max r.now d }

/-- A relation between what a rehearsal is before and after any of the turns of a step. -/
structure Passage (R : Rehearsal → Rehearsal → Prop) : Prop extends Course R where
  enlist (r : Rehearsal) (name : Option String) (c : Command) : R r (r.enlist name c)
  release (r : Rehearsal) (n : Nat) (errand : Errand) (h : r.errand? n = some errand) :
    R r ((r.release errand).setProgress n .givenUp)
  take (r : Rehearsal) (n : Nat) (a : Activity) (ha : r.activities[n]? = some a)
    (h : r.errand? n = none) : R r (r.setProgress n .taken)

namespace Course

variable {R : Rehearsal → Rehearsal → Prop} (pass : Course R)
include pass

theorem wake (r : Rehearsal) (p : Errand → Bool) : R r (r.wake p) :=
  pass.queue r _

/-- An activity works, and an ended request may wake what waits for the last one. -/
theorem run (r : Rehearsal) (n : Nat) : R r (r.run n) := by
  unfold Rehearsal.run
  cases herrand : r.errand? n with
  | none => exact pass.refl r
  | some errand =>
      have hturn := pass.work r n errand herrand
      simp only
      rcases hwork : r.work errand with ⟨s, outcome | left⟩
      · rw [hwork] at hturn
        simp only
        split
        · exact pass.trans hturn (pass.wake _ _)
        · exact hturn
      · rw [hwork] at hturn
        exact hturn

theorem runReady (fuel : Nat) (r : Rehearsal) : R r (runReady fuel r) := by
  induction fuel generalizing r with
  | zero => exact pass.refl r
  | succ fuel ih =>
      unfold Rehearsal.runReady
      cases r.ready with
      | nil => exact pass.refl r
      | cons n rest =>
          exact pass.trans (pass.queue r rest) (pass.trans (pass.run { r with ready := rest } n)
            (ih _))

theorem settle (r : Rehearsal) : R r r.settle :=
  pass.runReady _ r

theorem tick? (r s : Rehearsal) (front limit : Option Nat) (h : r.tick? front limit = some s) :
    R r s := by
  unfold Rehearsal.tick? at h
  cases hdue : r.nextDue? with
  | none =>
      rw [hdue] at h
      exact absurd h (by simp only [reduceCtorEq, not_false_eq_true])
  | some d =>
      rw [hdue] at h
      simp only at h
      split at h
      · exact absurd h (by simp only [reduceCtorEq, not_false_eq_true])
      · -- The clock is set, what is due is woken, and everything woken runs.
        rw [← Option.some.inj h]
        have hring : R { r with now := max r.now d }
            (({ r with now := max r.now d } : Rehearsal).ring front) := pass.queue _ _
        exact pass.trans (pass.clock r d hdue) (pass.trans hring (pass.settle _))

theorem tickUntil (fuel t : Nat) (r : Rehearsal) : R r (tickUntil fuel t r) := by
  induction fuel generalizing r with
  | zero => exact pass.refl r
  | succ fuel ih =>
      unfold Rehearsal.tickUntil
      cases htick : r.tick? none (some t) with
      | none => exact pass.refl r
      | some s => exact pass.trans (pass.tick? r s none (some t) htick) (ih s)

theorem awaitFor (front : Option Nat) (fuel n : Nat) (r : Rehearsal) :
    R r (awaitFor front fuel n r) := by
  induction fuel generalizing r with
  | zero => exact pass.refl r
  | succ fuel ih =>
      unfold Rehearsal.awaitFor
      cases r.errand? n with
      | none => exact pass.refl r
      | some errand =>
          cases htick : r.tick? front none with
          | none => exact pass.refl r
          | some s => exact pass.trans (pass.tick? r s front none htick) (ih s)

end Course

namespace Passage

variable {R : Rehearsal → Rehearsal → Prop} (pass : Passage R)
include pass

theorem launch (r : Rehearsal) (name : Option String) (c : Command) : R r (r.launch name c) := by
  rw [launch_eq]
  exact pass.trans (pass.enlist r name c) (pass.toCourse.settle _)

theorem await (r : Rehearsal) (front : Option Nat) (n : Nat) : R r (r.await front n).1 := by
  refine pass.trans (pass.toCourse.awaitFor front (r.allTimers.length + 1) n r) ?_
  unfold Rehearsal.await
  generalize Rehearsal.awaitFor front (r.allTimers.length + 1) n r = s
  simp only
  split
  · rename_i outcome hactivity
    have hidle := errand?_eq_none s n _ hactivity fun _ => Progress.noConfusion
    exact pass.take s n _ hactivity hidle
  · rename_i hactivity
    have hidle := errand?_eq_none s n _ hactivity fun _ => Progress.noConfusion
    exact pass.take s n _ hactivity hidle
  · exact pass.refl s

theorem giveUp (r : Rehearsal) (n : Nat) : R r (r.giveUp n) := by
  unfold Rehearsal.giveUp
  cases herrand : r.errand? n with
  | none => exact pass.refl r
  | some errand =>
      have hrelease := pass.release r n errand herrand
      simp only
      refine pass.trans ?_ (pass.toCourse.settle _)
      split
      · exact pass.trans hrelease (pass.toCourse.wake _ _)
      · exact hrelease

/-- A step is a number of turns, if letting time pass is. -/
theorem step (r : Rehearsal) (s : Step) (hadvance : ∀ ms, s = .advance ms → R r (r.advance ms)) :
    R r (r.step s).1 := by
  cases s with
  | perform c => exact pass.trans (pass.launch r none c) (pass.await _ _ _)
  | background name c => exact pass.launch r (some name) c
  | advance ms => exact hadvance ms rfl
  | join name =>
      simp only [Rehearsal.step]
      cases r.numberOf? name with
      | none => exact pass.refl r
      | some n => exact pass.await r none n
  | poll name =>
      simp only [Rehearsal.step]
      cases r.numberOf? name <;> exact pass.refl r
  | abort name =>
      simp only [Rehearsal.step]
      cases r.numberOf? name with
      | none => exact pass.refl r
      | some n => exact pass.giveUp r n
  | metrics => exact pass.refl r
  | stop limit =>
      simp only [Rehearsal.step]
      split
      · exact pass.launch r none (.stop limit)
      · exact pass.trans (pass.launch r none (.stop limit)) (pass.await _ _ _)

end Passage

theorem passage_reaches : Passage Reaches where
  refl _ := Relation.ReflTransGen.refl
  trans := Reaches.trans
  enlist r name c := (Turn.enlist r name c).reaches
  work r n errand h := (Turn.work r n errand h).reaches
  release r n errand h := (Turn.release r n errand h).reaches
  take r n a ha h := (Turn.take r n a ha h).reaches
  queue r ready := (Turn.queue r ready).reaches
  clock r d _ := (Turn.clock r (max r.now d)).reaches

theorem run_reaches (r : Rehearsal) (n : Nat) : Reaches r (r.run n) :=
  passage_reaches.toCourse.run r n

theorem settle_reaches (r : Rehearsal) : Reaches r r.settle :=
  passage_reaches.toCourse.settle r

theorem launch_reaches (r : Rehearsal) (name : Option String) (c : Command) :
    Reaches r (r.launch name c) :=
  passage_reaches.launch r name c

theorem advance_reaches (r : Rehearsal) (ms : Nat) : Reaches r (r.advance ms) :=
  (passage_reaches.toCourse.tickUntil _ _ r).trans (Turn.clock _ _).reaches

/-- Every step is a number of turns. -/
theorem step_reaches (r : Rehearsal) (s : Step) : Reaches r (r.step s).1 :=
  passage_reaches.step r s fun ms _ => advance_reaches r ms

theorem conclude_reaches (r : Rehearsal) (limit : Nat) : Reaches r (r.conclude limit) := by
  have hstop : Reaches r (if r.stage = some .serving then r.launch none (.stop limit) else r) := by
    split
    · exact launch_reaches r none (.stop limit)
    · exact Relation.ReflTransGen.refl
  refine hstop.trans ?_
  unfold conclude
  generalize (if r.stage = some .serving then r.launch none (.stop limit) else r) = s
  simp only
  cases (List.range s.activities.length).find? fun n => (s.errand? n).any Errand.isShutdown with
  | none => exact Relation.ReflTransGen.refl
  | some n => exact passage_reaches.await s none n

end Rehearsal

end Gateway
