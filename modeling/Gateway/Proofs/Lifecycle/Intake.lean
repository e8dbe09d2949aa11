import Mathlib.Logic.Relation
import Gateway.Proofs.Lifecycle.Phases
import Gateway.Proofs.Rehearsal.Admission

/-!
# Stopped and Idle

A server that has stopped is meant to be idle. A request looks *first* whether the server drains and
is counted *then*, and these are two turns. Between them a shutdown can run its whole course: the
server is triggered, the one who waits reads a count of zero and stops the server, and only then is
the request counted. It was let in and runs on a server that has stopped.

This is the only way. Once the shutdown was triggered, nobody is let in any more, so a request that
is still to run on a stopped server, or runs, was let in before and not counted at the moment when
zero was read. If there was none at that moment, the server is idle for good, and if there was one,
it can be counted after all (`stopped_idle`). Were a request counted first and looked afterwards,
the count would cover it when zero is read.

As a relation on worlds, a world holds the controller, how far each request has come, and how far
the one shutdown has. Requests may arrive at any time and in any number, and a step of any party
may follow a step of any other.

## Main definitions

* `Visitor`, `Closing`: How far a request, and the shutdown, has come.
* `World`, `Step`, `Reachable`: The parties on a controller, and their turns.
* `Idle`: Nobody is past the check, and nobody is counted.
* `Inv`, `Trails`: What holds in every reachable world, and from the reading of zero on.

## Theorems

* `inv_step`, `inv_of_reachable`: The invariant is kept by each step and so by every run.
* `trails_reaches`: Who is past the check later was past it when zero was read.
* `stopped_idle`: When a server that has stopped is idle.
* `stopped_busy`: A server that has stopped and is not.
* `receive_reaches`, `settle_reaches`: A request that arrives, and a look at the count, without
  interruption are `Api.receive` and `Lifecycle.settle`.
-/

namespace Gateway

namespace Intake

/-- How far a request has come. -/
inductive Visitor where
  /-- It is about to look whether the server drains. -/
  | arriving
  /-- It saw that the server drains and was refused. -/
  | refused
  /-- It saw that the server does not drain and is about to be counted. -/
  | letIn
  /-- It is counted and about to run. -/
  | counted
  /-- It runs. -/
  | running
  /-- It has ended and is not counted any more. -/
  | gone
  deriving DecidableEq

/-- A request counts. -/
def Visitor.counts : Visitor → Bool
  | counted | running => true
  | _ => false

/-- A request was let past the check, and is still to run or runs. -/
def Visitor.isPast : Visitor → Bool
  | letIn | counted | running => true
  | _ => false

/-- How far the shutdown has come. -/
inductive Closing where
  /-- It has not begun. -/
  | awaited
  /-- The server was triggered, and somebody waits for it to be idle. -/
  | draining
  /-- Who waits has read zero and is about to stop the server. -/
  | relieved
  /-- The server has stopped. -/
  | drained
  /-- The wait was given up. -/
  | overdue
  deriving DecidableEq

/-- Who waits has read zero. -/
def Closing.sawZero : Closing → Bool
  | relieved | drained => true
  | _ => false

/-- A controller with the parties that take turns on it. -/
structure World where
  /-- The controller. -/
  lifecycle : Lifecycle
  /-- The requests, in the order in which they arrived. -/
  visitors : List Visitor
  /-- The shutdown. -/
  closing : Closing

namespace World

/-- A request goes on. -/
def puts (s : World) (i : Nat) (v : Visitor) : World :=
  { s with visitors := s.visitors.set i v }

/-- Who waits reads a count of zero. -/
def relieved (s : World) : World :=
  { s with closing := .relieved }

end World

/-- The turns. Each is atomic, and each may come whenever its party is at it. -/
inductive Step : World → World → Prop
  /-- A request arrives. -/
  | arrive (s : World) : Step s { s with visitors := s.visitors ++ [.arriving] }
  /-- A request looks whether the server drains. -/
  | check (s : World) (i : Nat) (h : s.visitors[i]? = some .arriving) :
      Step s (s.puts i (if s.lifecycle.isDraining then .refused else .letIn))
  /-- A request that was let in is counted. -/
  | count (s : World) (i : Nat) (h : s.visitors[i]? = some .letIn) :
      Step s { s.puts i .counted with lifecycle := s.lifecycle.enter }
  /-- A request that is counted begins to run. -/
  | run (s : World) (i : Nat) (h : s.visitors[i]? = some .counted) : Step s (s.puts i .running)
  /-- A request ends, having run or not. -/
  | leave (s : World) (i : Nat) (v : Visitor) (h : s.visitors[i]? = some v)
      (hcounts : v.counts = true) :
      Step s { s.puts i .gone with lifecycle := s.lifecycle.leave.1 }
  /-- The shutdown begins. -/
  | trigger (s : World) (h : s.closing = .awaited) :
      Step s { s with lifecycle := s.lifecycle.trigger, closing := .draining }
  /-- Who waits reads zero. -/
  | look (s : World) (h : s.closing = .draining) (hidle : s.lifecycle.inFlight = 0) :
      Step s s.relieved
  /-- Who waits stops the server. -/
  | stop (s : World) (h : s.closing = .relieved) :
      Step s { s with lifecycle := s.lifecycle.stop, closing := .drained }
  /-- The wait is given up. -/
  | giveUp (s : World) (h : s.closing = .draining) : Step s { s with closing := .overdue }

/-- A world leads to another in any number of turns. -/
def Reaches : World → World → Prop :=
  Relation.ReflTransGen Step

/-- Nothing has arrived yet, newcomers are let in and the shutdown has not begun. -/
structure Begins (s : World) : Prop where
  /-- Newcomers are let in. -/
  opened : s.lifecycle.isDraining = false
  /-- The count is zero. -/
  count : s.lifecycle.inFlight = 0
  /-- Nothing has arrived. -/
  visitors : s.visitors = []
  /-- The shutdown has not begun. -/
  closing : s.closing = .awaited

/-- The worlds that any interleaving of turns leads to. -/
def Reachable (t : World) : Prop :=
  ∃ s, Begins s ∧ Reaches s t

/-- Nobody is counted, and nobody who was let past the check is still to run or runs. -/
def Idle (s : World) : Prop :=
  s.lifecycle.inFlight = 0 ∧ ∀ v ∈ s.visitors, v.isPast = false

theorem Reachable.tail {s t : World} (h : Reachable s) (hstep : Step s t) : Reachable t := by
  rcases h with ⟨first, hbegins, hreaches⟩
  exact ⟨first, hbegins, hreaches.tail hstep⟩

/-! ## Every Reachable World -/

/-- What holds in every reachable world. -/
structure Inv (s : World) : Prop where
  /-- The count is the number of requests that count. -/
  count : s.lifecycle.inFlight = s.visitors.countP Visitor.counts
  /-- Once the shutdown has begun, newcomers are refused. -/
  refuses : s.closing ≠ .awaited → s.lifecycle.isDraining = true
  /-- The server has stopped when who waited has stopped it. -/
  stopped : s.lifecycle.phase = .stopped → s.closing = .drained

theorem inv_begins (s : World) (h : Begins s) : Inv s := by
  refine ⟨?_, fun hc => absurd h.closing hc, fun hstopped => ?_⟩
  · rw [h.count, h.visitors]
    rfl
  · have hopened := h.opened
    rw [Lifecycle.isDraining, hstopped] at hopened
    exact absurd hopened (by decide)

theorem countP_set (visitors : List Visitor) (i : Nat) (v w : Visitor)
    (h : visitors[i]? = some v) :
    (visitors.set i w).countP Visitor.counts + (if v.counts then 1 else 0)
      = visitors.countP Visitor.counts + (if w.counts then 1 else 0) := by
  rcases List.getElem?_eq_some_iff.mp h with ⟨hlt, hget⟩
  have hset := List.countP_set (p := Visitor.counts) (a := w) hlt
  have hle : v.counts = true → 0 < visitors.countP Visitor.counts := fun hcounts =>
    List.countP_pos_iff.mpr ⟨v, hget ▸ List.getElem_mem hlt, hcounts⟩
  rw [hget] at hset
  by_cases hv : v.counts = true
  · have hpos := hle hv
    simp only [hv, if_true] at hset ⊢
    omega
  · simp only [hv, Bool.false_eq_true, if_false] at hset ⊢
    omega

/-- A request that goes on without the count changing keeps the invariant. -/
theorem inv_puts (s : World) (i : Nat) (v w : Visitor) (hinv : Inv s) (h : s.visitors[i]? = some v)
    (hsame : w.counts = v.counts) : Inv (s.puts i w) := by
  refine ⟨?_, hinv.refuses, hinv.stopped⟩
  have hset := countP_set s.visitors i v w h
  rw [hsame] at hset
  exact hinv.count.trans (Nat.add_right_cancel hset).symm

theorem inv_step (s t : World) (hinv : Inv s) (hstep : Step s t) : Inv t := by
  cases hstep with
  | arrive =>
      refine ⟨?_, hinv.refuses, hinv.stopped⟩
      rw [List.countP_append, ← hinv.count]
      rfl
  | check i h =>
      refine inv_puts s i _ _ hinv h ?_
      split <;> rfl
  | count i h =>
      refine ⟨?_, hinv.refuses, hinv.stopped⟩
      have hset := countP_set s.visitors i _ .counted h
      simp only [Visitor.counts, Bool.false_eq_true, if_false, if_true] at hset
      have hcount := hinv.count
      simp only [Lifecycle.enter, World.puts]
      omega
  | run i h => exact inv_puts s i _ _ hinv h rfl
  | leave i v h hcounts =>
      refine ⟨?_, hinv.refuses, hinv.stopped⟩
      have hset := countP_set s.visitors i v .gone h
      rw [if_pos hcounts, if_neg (by decide)] at hset
      have hcount := hinv.count
      simp only [Lifecycle.leave, World.puts]
      omega
  | trigger h => exact ⟨hinv.count, fun _ => rfl, fun hstopped => Phase.noConfusion hstopped⟩
  | look h hidle =>
      have hrefuses := hinv.refuses (by rw [h]; decide)
      refine ⟨hinv.count, fun _ => hrefuses, fun hstopped => ?_⟩
      have hdrained := hinv.stopped hstopped
      rw [h] at hdrained
      exact absurd hdrained (by decide)
  | stop h => exact ⟨hinv.count, fun _ => rfl, fun _ => rfl⟩
  | giveUp h =>
      have hrefuses := hinv.refuses (by rw [h]; decide)
      refine ⟨hinv.count, fun _ => hrefuses, fun hstopped => ?_⟩
      have hdrained := hinv.stopped hstopped
      rw [h] at hdrained
      exact absurd hdrained (by decide)

theorem inv_of_reachable (t : World) (h : Reachable t) : Inv t := by
  rcases h with ⟨s, hbegins, hreaches⟩
  induction hreaches with
  | refl => exact inv_begins s hbegins
  | tail _ hstep ih => exact inv_step _ _ ih hstep

/-! ## From the Reading of Zero On -/

/-- Who waits has read zero at some time, and has stopped the server since or is about to. -/
theorem exists_relieved (t : World) (h : Reachable t) (hsaw : t.closing.sawZero = true) :
    ∃ s, Reachable s ∧ s.closing = .draining ∧ s.lifecycle.inFlight = 0
      ∧ Reaches s.relieved t := by
  rcases h with ⟨first, hbegins, hreaches⟩
  induction hreaches with
  | refl =>
      rw [hbegins.closing] at hsaw
      exact absurd hsaw (by decide)
  | @tail u t hreaches hstep ih =>
      -- Either zero was read before this turn, or it was read in it.
      by_cases hbefore : u.closing.sawZero = true
      · rcases ih hbefore with ⟨s, hs, hdraining, hidle, hrest⟩
        exact ⟨s, hs, hdraining, hidle, hrest.tail hstep⟩
      · cases hstep with
        | arrive | check | count | run | leave => exact absurd hsaw hbefore
        | trigger h | giveUp h => exact absurd hsaw Bool.false_ne_true
        | look h hidle => exact ⟨u, ⟨first, hbegins, hreaches⟩, h, hidle, .refl⟩
        | stop h =>
            rw [h] at hbefore
            exact absurd rfl hbefore

/-- What holds from the moment on when zero was read: who waits goes on to stop the server, and who
    is past the check was let in at that moment and not counted. -/
structure Trails (s t : World) : Prop where
  /-- Zero was read. -/
  sawZero : t.closing.sawZero = true
  /-- Nobody was let past the check since. -/
  visitors : ∀ (i : Nat) (v : Visitor), t.visitors[i]? = some v → v.isPast = true →
    s.visitors[i]? = some .letIn

theorem trails_relieved (s : World) (h : Reachable s) (hidle : s.lifecycle.inFlight = 0) :
    Trails s s.relieved := by
  refine ⟨rfl, fun i v hv hpast => ?_⟩
  -- At a count of zero nobody counts, so who is past the check has yet to be counted.
  have hnone : ¬ v.counts = true := by
    have hzero := (inv_of_reachable s h).count.symm.trans hidle
    exact List.countP_eq_zero.mp hzero v (List.mem_of_getElem? hv)
  cases v with
  | letIn => exact hv
  | counted | running => exact absurd rfl hnone
  | arriving | refused | gone => exact absurd hpast (by decide)

/-- A request that goes on is not past the check unless it was before. -/
theorem Trails.puts {s t : World} (h : Trails s t) (i : Nat) (v w : Visitor)
    (hv : t.visitors[i]? = some v) (hpast : w.isPast = true → v.isPast = true) :
    Trails s (t.puts i w) := by
  refine ⟨h.sawZero, fun j u hu hupast => ?_⟩
  simp only [World.puts] at hu
  by_cases hij : i = j
  · rw [← hij, List.getElem?_set_self (List.getElem?_eq_some_iff.mp hv).1] at hu
    rw [← Option.some.inj hu] at hupast
    exact hij ▸ h.visitors i v hv (hpast hupast)
  · rw [List.getElem?_set_ne hij] at hu
    exact h.visitors j u hu hupast

theorem Trails.step {s t u : World} (h : Trails s t) (hinv : Inv t) (hstep : Step t u) :
    Trails s u := by
  have hrefuses : t.lifecycle.isDraining = true := by
    refine hinv.refuses fun hawaited => ?_
    have hsaw := h.sawZero
    rw [hawaited] at hsaw
    exact absurd hsaw (by decide)
  cases hstep with
  | arrive =>
      refine ⟨h.sawZero, fun i v hv hpast => ?_⟩
      rcases Nat.lt_or_ge i t.visitors.length with hlt | hge
      · rw [List.getElem?_append_left hlt] at hv
        exact h.visitors i v hv hpast
      · -- The newcomer has not come to the check.
        rw [List.getElem?_append_right hge] at hv
        rw [List.mem_singleton.mp (List.mem_of_getElem? hv)] at hpast
        exact absurd hpast (by decide)
  | check i hi =>
      refine h.puts i _ _ hi ?_
      rw [if_pos hrefuses]
      exact fun hpast => absurd hpast (by decide)
  | count i hi =>
      have hputs := h.puts i _ .counted hi fun _ => rfl
      exact ⟨hputs.sawZero, hputs.visitors⟩
  | run i hi => exact h.puts i _ _ hi fun _ => rfl
  | leave i v hi hcounts =>
      have hputs := h.puts i v .gone hi fun hpast => absurd hpast (by decide)
      exact ⟨hputs.sawZero, hputs.visitors⟩
  | trigger hc | look hc | giveUp hc =>
      have hsaw := h.sawZero
      rw [hc] at hsaw
      exact absurd hsaw (by decide)
  | stop hc => exact ⟨rfl, h.visitors⟩

theorem trails_reaches (s t : World) (h : Reachable s) (hdraining : s.closing = .draining)
    (hidle : s.lifecycle.inFlight = 0) (hreaches : Reaches s.relieved t) :
    Trails s t ∧ Reachable t := by
  induction hreaches with
  | refl => exact ⟨trails_relieved s h hidle, h.tail (.look s hdraining hidle)⟩
  | tail _ hstep ih => exact ⟨ih.1.step (inv_of_reachable _ ih.2) hstep, ih.2.tail hstep⟩

theorem Trails.idle {s t : World} (h : Trails s t) (hinv : Inv t) (hnobody : .letIn ∉ s.visitors) :
    Idle t := by
  have hnone : ∀ v ∈ t.visitors, v.isPast = false := fun v hv => by
    rcases List.mem_iff_getElem?.mp hv with ⟨i, hi⟩
    refine Bool.eq_false_iff.mpr fun hpast => hnobody ?_
    exact List.mem_of_getElem? (h.visitors i v hi hpast)
  refine ⟨?_, hnone⟩
  rw [hinv.count, List.countP_eq_zero]
  intro v hv hcounts
  -- Who counts is past the check.
  have hpast : v.isPast = true := by
    cases v with
    | counted | running => rfl
    | arriving | refused | letIn | gone => exact absurd hcounts (by decide)
  rw [hnone v hv] at hpast
  exact absurd hpast Bool.false_ne_true

/-- A request that was let in and not counted when zero was read can be counted on the server that
    has stopped. -/
theorem exists_busy (s : World) (h : .letIn ∈ s.visitors) :
    ∃ t, Reaches s.relieved t ∧ t.lifecycle.phase = .stopped ∧ ¬ Idle t := by
  rcases List.mem_iff_getElem?.mp h with ⟨i, hi⟩
  have hstop := Step.stop s.relieved rfl
  have hcount := Step.count _ i (show { s.relieved with
    lifecycle := s.relieved.lifecycle.stop
    closing := .drained }.visitors[i]? = some .letIn from hi)
  exact ⟨_, .head hstop (.single hcount), rfl, fun hidle => absurd hidle.1 (Nat.succ_ne_zero _)⟩

/-- A server that has stopped was stopped by somebody who had read a count of zero. Whoever is past
    the check then or later was let in before the shutdown and not counted when zero was read. So
    the server is idle in every world from that moment on in which it has stopped, whatever turns
    led there, if and only if nobody was between the check and the count at that moment. -/
theorem stopped_idle (t : World) (h : Reachable t) (hstopped : t.lifecycle.phase = .stopped) :
    ∃ s, Reachable s ∧ s.closing = .draining ∧ s.lifecycle.inFlight = 0 ∧ Reaches s.relieved t
      ∧ (∀ (i : Nat) (v : Visitor), t.visitors[i]? = some v → v.isPast = true →
        s.visitors[i]? = some .letIn)
      ∧ ((∀ u, Reaches s.relieved u → u.lifecycle.phase = .stopped → Idle u)
        ↔ .letIn ∉ s.visitors) := by
  have hsaw : t.closing.sawZero = true := by
    rw [(inv_of_reachable t h).stopped hstopped]
    rfl
  rcases exists_relieved t h hsaw with ⟨s, hs, hdraining, hidle, hreaches⟩
  have htrails := trails_reaches s t hs hdraining hidle hreaches
  refine ⟨s, hs, hdraining, hidle, hreaches, htrails.1.visitors, ?_, ?_⟩
  · intro hall hmem
    rcases exists_busy s hmem with ⟨u, hu, hphase, hbusy⟩
    exact hbusy (hall u hu hphase)
  · intro hnobody u hu _
    have hlater := trails_reaches s u hs hdraining hidle hu
    exact hlater.1.idle (inv_of_reachable u hlater.2) hnobody

/-- A request that ends before zero is read, and another that comes once the server has stopped. -/
theorem stopped_idle_in_order : ∃ t, Reachable t ∧ t.lifecycle.phase = .stopped
    ∧ t.visitors = [.gone, .refused]
    ∧ ∃ s, Reachable s ∧ s.closing = .draining ∧ s.lifecycle.inFlight = 0
      ∧ Reaches s.relieved t
      ∧ ((∀ u, Reaches s.relieved u → u.lifecycle.phase = .stopped → Idle u)
        ↔ .letIn ∉ s.visitors) := by
  have h₁ : Reaches ⟨Lifecycle.new.setReady, [], .awaited⟩ _ := .single (.arrive _)
  have h₂ := h₁.tail (.check _ 0 rfl)
  have h₃ := h₂.tail (.count _ 0 rfl)
  have h₄ := h₃.tail (.trigger _ rfl)
  have h₅ := h₄.tail (.run _ 0 rfl)
  have h₆ := h₅.tail (.leave _ 0 .running rfl rfl)
  have h₇ := h₆.tail (.look _ rfl rfl)
  have h₈ := h₇.tail (.stop _ rfl)
  have h₉ := h₈.tail (.arrive _)
  have h₁₀ := h₉.tail (.check _ 1 rfl)
  have hreachable := (⟨_, ⟨rfl, rfl, rfl, rfl⟩, h₁₀⟩ : Reachable _)
  rcases stopped_idle _ hreachable rfl with ⟨s, hs, hdraining, hidle, hreaches, _, hiff⟩
  exact ⟨_, hreachable, rfl, rfl, s, hs, hdraining, hidle, hreaches, hiff⟩

/-- A request looks just before the shutdown begins, and is counted once the server has stopped:
    it runs there. -/
theorem stopped_busy : ∃ t, Reachable t ∧ t.lifecycle.phase = .stopped
    ∧ t.visitors = [.running] ∧ t.lifecycle.inFlight = 1 ∧ ¬ Idle t := by
  have h₁ : Reaches ⟨Lifecycle.new.setReady, [], .awaited⟩ _ := .single (.arrive _)
  have h₂ := h₁.tail (.check _ 0 rfl)
  have h₃ := h₂.tail (.trigger _ rfl)
  have h₄ := h₃.tail (.look _ rfl rfl)
  have h₅ := h₄.tail (.stop _ rfl)
  have h₆ := h₅.tail (.count _ 0 rfl)
  have h₇ := h₆.tail (.run _ 0 rfl)
  exact ⟨_, ⟨_, ⟨rfl, rfl, rfl, rfl⟩, h₇⟩, rfl, rfl, rfl, fun hidle => absurd hidle.1 (by decide)⟩

/-! ## Turns That Nobody Interrupts -/

/-- A request to a forwarding route that looks and is counted without interruption does to the
    controller, and is told, what `Api.receive` says. -/
theorem receive_reaches (s : World) (i : Nat) (h : s.visitors[i]? = some .arriving)
    (api : Api) (now : Nat) (targets : List Target) (exposition : List String)
    (q : Http.Request) (route : Http.Route) (what : Http.Route.Forward) (quota : Quota)
    (hroute : Http.Route.ofPath? q.path = some route)
    (hforward : route.forward? = some (what, quota)) (hanswers : route.answers q.method = true)
    (hsame : api.lifecycle = s.lifecycle) :
    Reaches s
      { s.puts i (if (api.receive now targets exposition q).2.2 then .counted else .refused) with
        lifecycle := (api.receive now targets exposition q).1.lifecycle } := by
  have hcheck := Step.check s i h
  have hlt : i < s.visitors.length := (List.getElem?_eq_some_iff.mp h).1
  cases hdrains : s.lifecycle.isDraining with
  | true =>
      rw [Rehearsal.receive_of_draining api now targets exposition q route what quota hroute
        hforward (hsame ▸ hdrains)]
      rw [hdrains, if_pos rfl] at hcheck
      simp only [Bool.false_eq_true, if_false, hsame]
      exact .single hcheck
  | false =>
      rw [Rehearsal.receive_of_not_draining api now targets exposition q route what quota hroute
        hforward hanswers (hsame ▸ hdrains)]
      rw [hdrains, if_neg Bool.false_ne_true] at hcheck
      have hcount := Step.count (s.puts i .letIn) i (List.getElem?_set_self hlt)
      simp only [World.puts, List.set_set, Rehearsal.forward_lifecycle, if_true, hsame] at hcount ⊢
      exact .head hcheck (.single hcount)

/-- A look at the count without interruption is `Lifecycle.settle` of the controller. -/
theorem settle_reaches (s : World) (h : s.closing = .draining) :
    Reaches s
      { s with
        lifecycle := s.lifecycle.settle.1
        closing := if s.lifecycle.settle.2 then .drained else .draining } := by
  rw [Lifecycle.settle_eq]
  by_cases hidle : s.lifecycle.inFlight = 0
  · simp only [if_pos hidle, if_true]
    exact .head (.look s h hidle) (.single (.stop s.relieved rfl))
  · simp only [if_neg hidle, Bool.false_eq_true, if_false, ← h]
    exact .refl

end Intake

end Gateway
