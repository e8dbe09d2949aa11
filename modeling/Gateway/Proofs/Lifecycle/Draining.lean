import Mathlib.Logic.Relation
import Gateway.Proofs.Lifecycle.Phases

/-!
# No Last Request Is Missed

Whoever waits for an idle server must not sleep through the end of the last request. Two things are
done by each side, and neither pair is atomic. A request that ends is taken off the count *first*
and, if it was the last, tells whoever waits *then*. The one who waits begins to listen *first* and
reads the count *then*, and goes to sleep if the count is not zero. So if the last request goes
after the reading, it tells somebody who listens already, and if it goes before, the reading shows
zero. Were the count read before listening began, the news could fall in between.

The module states this as a relation on worlds. A world holds the controller, one guard for every
request that was ever counted, how often the news was told, the time, and how far the wait has come.
Requests come and go at any time, also once the count was zero, and a new wait may begin after the
last. A guard that was dropped as the last one still owes the news until it has told it
(`Guard.telling`), and this is what the invariant needs: a sleeper who was told nothing since it
began to listen sees a server that is not idle, unless a guard that owes the news is still about
(`Fits`). Every turn keeps that. A request that comes makes the server busy, the last one that goes
owes the news, and the news once told is later than the moment the sleeper began to listen.

Waking up is not tied to the count. One who was told of an idle server may find it busy again and
go back to sleep, listening from then on.

## Main definitions

* `Guard`, `Stage`, `Vigil`: How far a request, and a wait for an idle server, has come.
* `World`, `Step`, `Reachable`: The parties on a controller, and their turns.
* `Fits`, `Inv`: What holds of a wait, and in every reachable world.

## Theorems

* `inv_step`, `inv_of_reachable`: The invariant is kept by each step and so by every run.
* `drain_misses_nobody`: No wait sleeps through the end of the last request.
* `idle_ends_vigil`: A wait on an idle server can always come to its end.
* `leave_reaches`, `settle_reaches`: A guard that is dropped, and a look at the count, without
  interruption are `Lifecycle.leave` and `Lifecycle.settle`.
-/

namespace Gateway

namespace Draining

/-- How far the guard of a request has come. -/
inductive Guard where
  /-- It counts. -/
  | held
  /-- It counts no longer. It was the last one, and has yet to tell whoever waits. -/
  | telling
  /-- It counts no longer and owes nothing. -/
  | gone
  deriving DecidableEq

/-- How far a wait for an idle server has come. -/
inductive Stage where
  /-- It is at the beginning of a round. -/
  | turning
  /-- It listens to what is told from a moment on, and has not read the count. -/
  | listening (since : Nat)
  /-- It has read zero and is about to stop the server. -/
  | relieved
  /-- It has read a count that is not zero, and sleeps. -/
  | parked (since : Nat)
  /-- It has returned, and says whether the server became idle. -/
  | ended (idle : Bool)
  deriving DecidableEq

/-- A wait for an idle server. -/
structure Vigil where
  /-- When it is given up. -/
  deadline : Nat
  /-- The phase that it found. -/
  began : Phase
  /-- The counts that it has read, the latest first. -/
  seen : List Nat
  /-- How far it has come. -/
  stage : Stage

/-- A controller with the parties that take turns on it. -/
structure World where
  /-- The controller. -/
  lifecycle : Lifecycle
  /-- A guard for every request that was ever counted. -/
  guards : List Guard
  /-- How often whoever waits was told that the server is idle. -/
  told : Nat
  /-- The time. -/
  now : Nat
  /-- The wait that was begun last. -/
  vigil : Option Vigil

namespace World

/-- A wait goes on to a stage. -/
def moves (s : World) (v : Vigil) (stage : Stage) : World :=
  { s with vigil := some { v with stage := stage } }

/-- A guard is dropped: its request is taken off the count, and the last one owes the news. -/
def drops (s : World) (i : Nat) : World :=
  { s with
    lifecycle := s.lifecycle.leave.1
    guards := s.guards.set i (if s.lifecycle.leave.2 then .telling else .gone) }

/-- A guard tells whoever waits. -/
def tells (s : World) (i : Nat) : World :=
  { s with guards := s.guards.set i .gone, told := s.told + 1 }

/-- A wait reads the count. -/
def looks (s : World) (v : Vigil) (since : Nat) : World :=
  s.moves { v with seen := s.lifecycle.inFlight :: v.seen }
    (if s.lifecycle.inFlight = 0 then .relieved else .parked since)

end World

/-- The turns. Each is atomic, and each may come whenever its party is at it. -/
inductive Step : World → World → Prop
  /-- A request is counted. -/
  | enter (s : World) :
      Step s { s with lifecycle := s.lifecycle.enter, guards := s.guards ++ [.held] }
  /-- The guard of a request is dropped. -/
  | drop (s : World) (i : Nat) (h : s.guards[i]? = some .held) : Step s (s.drops i)
  /-- The guard that was dropped last tells whoever waits. -/
  | tell (s : World) (i : Nat) (h : s.guards[i]? = some .telling) : Step s (s.tells i)
  /-- Time passes. -/
  | clock (s : World) (now : Nat) (h : s.now ≤ now) : Step s { s with now := now }
  /-- A wait begins, for so long at most. -/
  | start (s : World) (limit : Nat) (h : ∀ v, s.vigil = some v → ∃ idle, v.stage = .ended idle) :
      Step s { s with vigil := some ⟨s.now + limit, s.lifecycle.phase, [], .turning⟩ }
  /-- A wait begins to listen. -/
  | listen (s : World) (v : Vigil) (h : s.vigil = some v) (hstage : v.stage = .turning) :
      Step s (s.moves v (.listening s.told))
  /-- A wait reads the count. -/
  | look (s : World) (v : Vigil) (since : Nat) (h : s.vigil = some v)
      (hstage : v.stage = .listening since) : Step s (s.looks v since)
  /-- A wait that has read zero stops the server and returns. -/
  | stop (s : World) (v : Vigil) (h : s.vigil = some v) (hstage : v.stage = .relieved) :
      Step s { s.moves v (.ended true) with lifecycle := s.lifecycle.stop }
  /-- A sleeper that was told wakes up, for another round. -/
  | wake (s : World) (v : Vigil) (since : Nat) (h : s.vigil = some v)
      (hstage : v.stage = .parked since) (htold : since < s.told) : Step s (s.moves v .turning)
  /-- A sleeper whose deadline has passed gives up. -/
  | giveUp (s : World) (v : Vigil) (since : Nat) (h : s.vigil = some v)
      (hstage : v.stage = .parked since) (hdeadline : v.deadline ≤ s.now) :
      Step s (s.moves v (.ended false))

/-- A world leads to another in any number of turns. -/
def Reaches : World → World → Prop :=
  Relation.ReflTransGen Step

/-- Nothing was counted yet and nobody waits. The phase may be any. -/
structure Begins (s : World) : Prop where
  /-- The count is zero. -/
  count : s.lifecycle.inFlight = 0
  /-- There are no guards. -/
  guards : s.guards = []
  /-- Nobody has waited. -/
  vigil : s.vigil = none

/-- The worlds that any interleaving of turns leads to. -/
def Reachable (t : World) : Prop :=
  ∃ s, Begins s ∧ Reaches s t

/-! ## The Count -/

theorem count_set (guards : List Guard) (i : Nat) (g h : Guard) (hi : guards[i]? = some g) :
    (guards.set i h).count .held + (if g = .held then 1 else 0)
      = guards.count .held + (if h = .held then 1 else 0) := by
  rcases List.getElem?_eq_some_iff.mp hi with ⟨hlt, hget⟩
  have hcount := List.count_set (b := Guard.held) (a := h) hlt
  have hle : guards[i] = .held → 0 < guards.count .held := fun hheld =>
    List.count_pos_iff.mpr (hheld ▸ List.getElem_mem hlt)
  rw [hget] at hcount hle
  simp only [beq_iff_eq] at hcount
  by_cases hg : g = .held
  · have hpos := hle hg
    simp only [hg, if_true] at hcount ⊢
    omega
  · simp only [hg, if_false] at hcount ⊢
    omega

/-- Dropping a guard that counts takes one off the count, which was not zero. -/
theorem leave_of_held (s : World) (i : Nat) (h : s.guards[i]? = some .held)
    (hcount : s.lifecycle.inFlight = s.guards.count .held) :
    s.lifecycle.leave.1.inFlight + 1 = s.lifecycle.inFlight := by
  have hpos : 0 < s.guards.count .held := List.count_pos_iff.mpr (List.mem_of_getElem? h)
  simp only [Lifecycle.leave]
  omega

/-! ## One Wait -/

/-- The count was read as zero, for the first time, in the last reading. -/
def SawZero (seen : List Nat) : Prop :=
  ∃ earlier, seen = 0 :: earlier ∧ 0 ∉ earlier

/-- What the stage of a wait has to do with the world. Before it stops the server it leaves the
    phase alone. While it sleeps and was told nothing, the server is not idle or somebody is about
    to tell. -/
def Fits (s : World) (v : Vigil) : Prop :=
  match v.stage with
  | .turning => 0 ∉ v.seen ∧ s.lifecycle.phase = v.began
  | .listening since => since ≤ s.told ∧ 0 ∉ v.seen ∧ s.lifecycle.phase = v.began
  | .relieved => SawZero v.seen ∧ s.lifecycle.phase = v.began
  | .parked since =>
    (since ≤ s.told ∧ 0 ∉ v.seen ∧ s.lifecycle.phase = v.began)
      ∧ (since = s.told → s.lifecycle.inFlight = 0 → .telling ∈ s.guards)
  | .ended true => SawZero v.seen ∧ s.lifecycle.phase = .stopped
  | .ended false => v.deadline ≤ s.now ∧ 0 ∉ v.seen ∧ s.lifecycle.phase = v.began

/-- What a turn of somebody else may do to a wait: the phase stays, and neither the news nor the
    time goes back. A sleeper that was told nothing still finds the server busy, or somebody about
    to tell. -/
structure Spares (s t : World) : Prop where
  /-- The phase stays. -/
  phase : t.lifecycle.phase = s.lifecycle.phase
  /-- What was told stays told. -/
  told : s.told ≤ t.told
  /-- Time does not go back. -/
  now : s.now ≤ t.now
  /-- An end of the last request is told, or is about to be. -/
  news : t.told = s.told → t.lifecycle.inFlight = 0 →
    (s.lifecycle.inFlight = 0 → .telling ∈ s.guards) → .telling ∈ t.guards

theorem Fits.spare {s t : World} {v : Vigil} (h : Fits s v) (hspares : Spares s t) : Fits t v := by
  rcases hspares with ⟨hphase, htold, hnow, hnews⟩
  unfold Fits at h ⊢
  rw [hphase]
  cases hstage : v.stage with
  | turning | relieved => simpa only [hstage] using h
  | listening since =>
      simp only [hstage] at h ⊢
      exact ⟨Nat.le_trans h.1 htold, h.2⟩
  | parked since =>
      simp only [hstage] at h ⊢
      refine ⟨⟨Nat.le_trans h.1.1 htold, h.1.2⟩, fun hsince hidle => ?_⟩
      -- It was told nothing in this turn either, for it never listened from a later moment.
      have hsame : t.told = s.told := by
        have hle := h.1.1
        omega
      exact hnews hsame hidle (h.2 (hsince.trans hsame))
  | ended idle =>
      cases idle with
      | true => simpa only [hstage] using h
      | false =>
          simp only [hstage] at h ⊢
          exact ⟨Nat.le_trans h.1 hnow, h.2⟩

/-! ## Every Reachable World -/

/-- What holds in every reachable world. -/
structure Inv (s : World) : Prop where
  /-- The count is the number of guards that count. -/
  count : s.lifecycle.inFlight = s.guards.count .held
  /-- The wait fits its stage. -/
  fits : ∀ v, s.vigil = some v → Fits s v

theorem inv_begins (s : World) (h : Begins s) : Inv s := by
  constructor
  · rw [h.count, h.guards]
    rfl
  · intro v hv
    rw [h.vigil] at hv
    contradiction

/-- A turn that only moves the wait keeps the invariant if the wait fits its new stage. -/
theorem inv_moves (s : World) (v : Vigil) (stage : Stage) (h : Inv s)
    (hfits : Fits (s.moves v stage) { v with stage := stage }) : Inv (s.moves v stage) :=
  ⟨h.count, fun _ hw => Option.some.inj hw ▸ hfits⟩

theorem spares_enter (s : World) :
    Spares s { s with lifecycle := s.lifecycle.enter, guards := s.guards ++ [.held] } where
  phase := rfl
  told := Nat.le_refl _
  now := Nat.le_refl _
  news := fun _ hidle _ => absurd hidle (Nat.succ_ne_zero _)

theorem spares_drops (s : World) (i : Nat) (h : s.guards[i]? = some .held) (hinv : Inv s) :
    Spares s (s.drops i) where
  phase := rfl
  told := Nat.le_refl _
  now := Nat.le_refl _
  news := fun _ hidle _ => by
    -- The server is idle now, so the guard was the last, and so it owes the news.
    have hone : s.lifecycle.leave.1.inFlight + 1 = s.lifecycle.inFlight :=
      leave_of_held s i h hinv.count
    have hlast : s.lifecycle.leave.2 = true := by
      have hzero : s.lifecycle.leave.1.inFlight = 0 := hidle
      simp only [Lifecycle.leave, beq_iff_eq] at hone hzero ⊢
      omega
    have hlt : i < s.guards.length := (List.getElem?_eq_some_iff.mp h).1
    simp only [World.drops, hlast, if_true]
    exact List.mem_set hlt .telling

theorem spares_tells (s : World) (i : Nat) : Spares s (s.tells i) where
  phase := rfl
  told := Nat.le_succ _
  now := Nat.le_refl _
  news := fun hsame => absurd hsame (Nat.succ_ne_self s.told)

theorem inv_drops (s : World) (i : Nat) (h : s.guards[i]? = some .held) (hinv : Inv s) :
    Inv (s.drops i) := by
  refine ⟨?_, fun v hv => (hinv.fits v hv).spare (spares_drops s i h hinv)⟩
  have hone := leave_of_held s i h hinv.count
  have hcount := count_set s.guards i .held (if s.lifecycle.leave.2 then .telling else .gone) h
  have hother : (if s.lifecycle.leave.2 then Guard.telling else .gone) ≠ .held := by
    split <;> decide
  rw [if_pos rfl, if_neg hother] at hcount
  have hinvcount := hinv.count
  simp only [World.drops]
  omega

theorem inv_tells (s : World) (i : Nat) (h : s.guards[i]? = some .telling) (hinv : Inv s) :
    Inv (s.tells i) := by
  refine ⟨?_, fun v hv => (hinv.fits v hv).spare (spares_tells s i)⟩
  have hcount := count_set s.guards i .telling .gone h
  rw [if_neg (by decide), if_neg (by decide)] at hcount
  exact hinv.count.trans hcount.symm

theorem inv_looks (s : World) (v : Vigil) (since : Nat) (h : s.vigil = some v)
    (hstage : v.stage = .listening since) (hinv : Inv s) : Inv (s.looks v since) := by
  have hfits := hinv.fits v h
  simp only [Fits, hstage] at hfits
  refine inv_moves s _ _ hinv ?_
  by_cases hidle : s.lifecycle.inFlight = 0
  · simp only [Fits, if_pos hidle]
    exact ⟨⟨v.seen, by rw [hidle], hfits.2.1⟩, hfits.2.2⟩
  · simp only [Fits, if_neg hidle]
    refine ⟨⟨hfits.1, ?_, hfits.2.2⟩, fun _ hzero => absurd hzero hidle⟩
    intro hmem
    rcases List.mem_cons.mp hmem with hzero | hzero
    · exact hidle hzero.symm
    · exact hfits.2.1 hzero

theorem inv_step (s t : World) (hinv : Inv s) (hstep : Step s t) : Inv t := by
  cases hstep with
  | enter =>
      refine ⟨?_, fun v hv => (hinv.fits v hv).spare (spares_enter s)⟩
      simp only [Lifecycle.enter, List.count_append, hinv.count]
      rfl
  | drop i h => exact inv_drops s i h hinv
  | tell i h => exact inv_tells s i h hinv
  | clock now h =>
      refine ⟨hinv.count, fun v hv => (hinv.fits v hv).spare ?_⟩
      exact ⟨rfl, Nat.le_refl _, h, fun _ hidle htelling => htelling hidle⟩
  | start limit h => exact ⟨hinv.count, fun v hv => Option.some.inj hv ▸ ⟨List.not_mem_nil, rfl⟩⟩
  | listen v h hstage =>
      have hfits := hinv.fits v h
      simp only [Fits, hstage] at hfits
      exact inv_moves s v _ hinv ⟨Nat.le_refl _, hfits⟩
  | look v since h hstage => exact inv_looks s v since h hstage hinv
  | stop v h hstage =>
      have hfits := hinv.fits v h
      simp only [Fits, hstage] at hfits
      exact ⟨hinv.count, fun w hw => Option.some.inj hw ▸ ⟨hfits.1, rfl⟩⟩
  | wake v since h hstage htold =>
      have hfits := hinv.fits v h
      simp only [Fits, hstage] at hfits
      exact inv_moves s v _ hinv hfits.1.2
  | giveUp v since h hstage hdeadline =>
      have hfits := hinv.fits v h
      simp only [Fits, hstage] at hfits
      exact inv_moves s v _ hinv ⟨hdeadline, hfits.1.2⟩

theorem inv_of_reachable (t : World) (h : Reachable t) : Inv t := by
  rcases h with ⟨s, hbegins, hreaches⟩
  induction hreaches with
  | refl => exact inv_begins s hbegins
  | tail _ hstep ih => exact inv_step _ _ ih hstep

/-- Requests come and go as they like, and the count is always the number of guards that count, so
    dropping one of them never takes the count below zero. A wait says that the server is idle only
    after it has read zero in its last reading, and it has stopped the server then. It gives up
    only once its deadline has passed, and leaves the phase as it was. It never sleeps, untold since
    it began to listen, on an idle server that nobody is about to tell it of. -/
theorem drain_misses_nobody (s : World) (h : Reachable s) :
    s.lifecycle.inFlight = s.guards.count .held
      ∧ (∀ i : Nat, s.guards[i]? = some .held →
        s.lifecycle.leave.1.inFlight + 1 = s.lifecycle.inFlight)
      ∧ ∀ v, s.vigil = some v →
        (v.stage = .ended true → v.seen.head? = some 0 ∧ s.lifecycle.phase = .stopped)
          ∧ (v.stage = .ended false → v.deadline ≤ s.now ∧ s.lifecycle.phase = v.began)
          ∧ ¬ ∃ since, v.stage = .parked since ∧ s.lifecycle.inFlight = 0 ∧ s.told = since
            ∧ .telling ∉ s.guards := by
  have hinv := inv_of_reachable s h
  refine ⟨hinv.count, fun i hi => leave_of_held s i hi hinv.count, fun v hv => ?_⟩
  have hfits := hinv.fits v hv
  unfold Fits at hfits
  refine ⟨fun hstage => ?_, fun hstage => ?_, ?_⟩
  · simp only [hstage] at hfits
    rcases hfits with ⟨⟨earlier, hseen, _⟩, hphase⟩
    rw [hseen]
    exact ⟨rfl, hphase⟩
  · simp only [hstage] at hfits
    exact ⟨hfits.1, hfits.2.2⟩
  · rintro ⟨since, hstage, hidle, htold, htelling⟩
    simp only [hstage] at hfits
    exact htelling (hfits.2 htold.symm hidle)

/-- A request is under way when a wait begins. The wait reads one and sleeps, and the request goes:
    until it has told of that, the sleeper sleeps on an idle server. -/
theorem drain_misses_nobody_half_dropped : ∃ s v, Reachable s ∧ s.vigil = some v
    ∧ v.stage = .parked 0 ∧ v.seen = [1] ∧ s.lifecycle.inFlight = 0
    ∧ s.guards.count .held = 0 ∧ .telling ∈ s.guards
    ∧ ¬ ∃ since, v.stage = .parked since ∧ s.lifecycle.inFlight = 0 ∧ s.told = since
      ∧ .telling ∉ s.guards := by
  have h₁ : Reaches ⟨Lifecycle.new.trigger, [], 0, 0, none⟩ _ := .single (.enter _)
  have h₂ := h₁.tail (.start _ 50 fun v hv => absurd hv (Option.some_ne_none v).symm)
  have h₃ := h₂.tail (.listen _ _ rfl rfl)
  have h₄ := h₃.tail (.look _ _ 0 rfl rfl)
  have h₅ := h₄.tail (.drop _ 0 rfl)
  have hreachable := (⟨_, ⟨rfl, rfl, rfl⟩, h₅⟩ : Reachable _)
  rcases drain_misses_nobody _ hreachable with ⟨hcount, _, hvigil⟩
  exact ⟨_, _, hreachable, rfl, rfl, rfl, rfl, hcount.symm, List.mem_singleton_self _,
    (hvigil _ rfl).2.2⟩

/-! ## Turns That Nobody Interrupts -/

/-- Reading the count at the beginning of a round, without interruption, is `Lifecycle.settle` of
    the controller: either the server is stopped, or the wait sleeps. -/
theorem settle_reaches (s : World) (v : Vigil) (h : s.vigil = some v)
    (hstage : v.stage = .turning) :
    Reaches s
      { s.moves { v with seen := s.lifecycle.inFlight :: v.seen }
          (if s.lifecycle.settle.2 then .ended true else .parked s.told) with
        lifecycle := s.lifecycle.settle.1 } := by
  have hlisten := Step.listen s v h hstage
  have hlook := Step.look (s.moves v (.listening s.told)) _ s.told rfl rfl
  have hread : Reaches s (s.looks v s.told) := .head hlisten (.single hlook)
  rw [Lifecycle.settle_eq]
  by_cases hidle : s.lifecycle.inFlight = 0
  · simp only [if_pos hidle, if_true]
    rw [World.looks, if_pos hidle] at hread
    exact hread.tail
      (.stop _ { v with seen := s.lifecycle.inFlight :: v.seen, stage := .relieved } rfl rfl)
  · simp only [if_neg hidle, Bool.false_eq_true, if_false]
    rw [World.looks, if_neg hidle] at hread
    exact hread

/-- A guard that is dropped without interruption is `Lifecycle.leave` of the controller, and whoever
    waits is told if it was the last. -/
theorem leave_reaches (s : World) (i : Nat) (h : s.guards[i]? = some .held) :
    Reaches s
      { s with
        lifecycle := s.lifecycle.leave.1
        guards := s.guards.set i .gone
        told := if s.lifecycle.leave.2 then s.told + 1 else s.told } := by
  have hdrop := Step.drop s i h
  have hlt : i < s.guards.length := (List.getElem?_eq_some_iff.mp h).1
  by_cases hlast : s.lifecycle.leave.2 = true
  · have howes : (s.drops i).guards[i]? = some .telling := by
      simp only [World.drops, hlast, if_true, List.getElem?_set_self hlt]
    have hboth := Relation.ReflTransGen.head hdrop (.single (Step.tell _ i howes))
    simp only [World.drops, World.tells, hlast, if_true, List.set_set] at hboth ⊢
    exact hboth
  · have hone := Relation.ReflTransGen.single hdrop
    simp only [World.drops, hlast, Bool.false_eq_true, if_false] at hone ⊢
    exact hone

/-- Once the server is idle, a wait that sleeps can come to its end with the server stopped: if it
    was told nothing yet, a guard that owes the news can tell it. -/
theorem idle_ends_vigil (s : World) (v : Vigil) (since : Nat) (h : Reachable s)
    (hvigil : s.vigil = some v) (hstage : v.stage = .parked since)
    (hidle : s.lifecycle.inFlight = 0) :
    ∃ t w, Reaches s t ∧ t.vigil = some w ∧ w.stage = .ended true
      ∧ t.lifecycle = s.lifecycle.stop := by
  have hfits := (inv_of_reachable s h).fits v hvigil
  simp only [Fits, hstage] at hfits
  -- First the sleeper is told, unless it was.
  have htold : ∃ t, Reaches s t ∧ t.vigil = some v ∧ t.lifecycle = s.lifecycle
      ∧ since < t.told := by
    rcases Nat.lt_or_ge since s.told with hlt | hge
    · exact ⟨s, .refl, hvigil, rfl, hlt⟩
    · have hsame : since = s.told := Nat.le_antisymm hfits.1.1 hge
      rcases List.mem_iff_getElem?.mp (hfits.2 hsame hidle) with ⟨i, hi⟩
      exact ⟨s.tells i, .single (.tell s i hi), hvigil, rfl, hsame ▸ Nat.lt_succ_self _⟩
  rcases htold with ⟨t, hreaches, htvigil, hsame, hlt⟩
  have hwake := Step.wake t v since htvigil hstage hlt
  have hsettle := settle_reaches (t.moves v .turning) { v with stage := .turning } rfl rfl
  have htidle : t.lifecycle.inFlight = 0 := hsame ▸ hidle
  have hstops : (t.moves v .turning).lifecycle.settle = (s.lifecycle.stop, true) := by
    rw [Lifecycle.settle_eq, ← hsame]
    exact if_pos htidle
  rw [hstops] at hsettle
  exact ⟨_, _, (hreaches.tail hwake).trans hsettle, rfl, rfl, rfl⟩

end Draining

end Gateway
