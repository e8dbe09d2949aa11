import Gateway.Proofs.Registry.Wiring
import Gateway.Proofs.Rehearsal.Rounds

/-!
# A Round Comes to What Its Slots Say

What a round is heading for when its calls have been placed is what it comes to, whatever happens
before the last of them has settled. Other commands may be started and given up, other calls may
settle, and the clock may stop as often as it likes. None of this touches the flights of the round,
and whenever the round looks at them it does so in time. So the property that a round stands as
foreseen is a matter of that round alone, and punctual turns keep it (`foreseen_onTime`).

Two things remain for a round that is waited for. It does end: as long as a call has not settled a
timer is set for it, and waiting goes on until no timer is left. And in the meantime nothing gives
the round up and nobody is asked for anything else, as everything that happens comes by itself.

`fan_out` puts this together. Since what a round comes to is read off its slots, what is true of the
slots is true of its report: one for each registered target, in the order of the registry, each a
matter of that target's own client and the time limit, unless its call was turned away.

A call that was turned away has reached nobody. That its slot reads as overloaded does not tell so:
a client may have been asked and have answered just that (`overloaded_by_client`).

## Main definitions

* `Rehearsal.Foreseen`: A round stands as it may when it is heading for some outcomes.
* `Rehearsal.Unforced`: What is left alone by what comes by itself.
* `Rehearsal.Wired`: The clients were matched with a registry.
* `Rehearsal.slots`, `Rehearsal.answerTo?`: What a round comes to, and what its clients answer.

## Theorems

* `Rehearsal.foreseen_onTime`: A round stands as foreseen through punctual turns.
* `Rehearsal.foreseen_performed`: What is waited for comes to what was foreseen.
* `Rehearsal.step_round`: A round that is waited for comes to what its slots say.
* `Rehearsal.fan_out`: A fan-out is ordered, isolated and exactly once.
-/

namespace Gateway

/-- Something was neither given up nor taken. -/
def Progress.Stands (p : Progress) : Prop :=
  p ≠ .givenUp ∧ p ≠ .taken

/-- Whether all calls of a round succeeded, as its report has it. -/
def Upshot.isComplete : Upshot → Bool
  | .report r => r.isComplete
  | .health r => r.healthy
  | _ => false

/-! ## Lines of a Registry -/

/-- The line of a target is found at its place. -/
theorem Switchboard.findIdx?_of_line (b : Switchboard) (hdistinct : b.targets.Nodup) (i : Nat)
    (line : Line) (hline : b.lines[i]? = some line) :
    b.lines.findIdx? (fun l => l.target == line.target) = some i := by
  rcases List.getElem?_eq_some_iff.mp hline with ⟨hlt, hat⟩
  refine List.findIdx?_eq_some_iff_getElem.mpr ⟨hlt, by rw [hat, beq_self_eq_true], ?_⟩
  -- A line before it has another target.
  intro j hj hsame
  have hother := List.getElem?_eq_getElem (Nat.lt_trans hj hlt)
  have hindex := b.index_of_target hdistinct i j line _ hline hother (beq_iff_eq.mp hsame)
  omega

namespace Rehearsal

/-! ## Rounds That Stand as Foreseen -/

/-- How a round stands that is heading for some outcomes, or has come to them. -/
inductive Foreseen (purpose : Purpose) (outcomes : List Outcome) (r : Rehearsal) : Progress → Prop
  /-- Some calls have not settled. -/
  | waits (legs : List Leg) (h : Destined r legs outcomes) (hopen : outcomes? legs = none) :
      Foreseen purpose outcomes r (.running (.calls legs purpose none))
  /-- All have settled. -/
  | ended : Foreseen purpose outcomes r (.ended (purpose.conclude outcomes))
  /-- It was given up. -/
  | givenUp : Foreseen purpose outcomes r .givenUp
  /-- Its outcome was taken. -/
  | taken : Foreseen purpose outcomes r .taken

section Rounds

variable {purpose : Purpose} {outcomes : List Outcome} {r s : Rehearsal}

/-- Calls that work stand as foreseen after it. -/
theorem foreseen_work (legs : List Leg) (hdistinct : (numbersOf legs).Nodup)
    (h : Destined r legs outcomes) :
    Foreseen purpose outcomes (r.work (.calls legs purpose none)).1
      (progressOf (r.work (.calls legs purpose none)).2) := by
  have hland := destined_landLegs hdistinct h
  simp only [work]
  cases hall : outcomes? (r.landLegs legs).2 with
  | some os =>
      simp only
      rw [outcomes?_of_destined os hland hall]
      exact .ended
  | none => exact .waits _ hland hall

/-- How a round stands is a matter of that round alone. -/
theorem personal_foreseen : Personal (Foreseen purpose outcomes) where
  congr h hnow hflights := by
    cases h with
    | waits legs h hopen => exact .waits legs (h.congr hnow hflights) hopen
    | ended => exact .ended
    | givenUp => exact .givenUp
    | taken => exact .taken
  work hdistinct h := by
    cases h with
    | waits legs h hopen => exact foreseen_work legs hdistinct h
  givenUp _ := .givenUp
  taken _ := .taken

/-- The clock may be set to any time that passes no timer of the round. -/
theorem Foreseen.clock {n now : Nat} {a : Activity} (ha : r.activities[n]? = some a)
    (h : Foreseen purpose outcomes r a.progress)
    (hpunctual : ∀ t ∈ r.timersOf n, now ≤ max r.now t.due) :
    Foreseen purpose outcomes { r with now := now } a.progress := by
  have htimers : r.timersOf n = r.timersAt a.progress := by
    rw [timersOf, ha, Option.elim_some]
  rw [htimers] at hpunctual
  generalize a.progress = p at h hpunctual
  cases h with
  | waits legs h hopen =>
      refine .waits legs ⟨h.forecast, fun t ht => ?_⟩ hopen
      -- No timer of a call has passed yet, so it is the later of the two.
      have hearly := h.early t ht
      have hbound := hpunctual t ht
      simp only
      omega
  | ended => exact .ended
  | givenUp => exact .givenUp
  | taken => exact .taken

theorem foreseen_turn (n : Nat) (a : Activity) (hr : Reachable r) (ha : r.activities[n]? = some a)
    (h : Foreseen purpose outcomes r a.progress) (hturn : Punctual r s) :
    ∃ b, s.activities[n]? = some b ∧ Foreseen purpose outcomes s b.progress := by
  refine personal_foreseen.turn hr ha h hturn.1 fun now hs => ?_
  rw [hs]
  refine h.clock ha fun t ht => ?_
  have hnow := hturn.2 n t ht
  rw [hs] at hnow
  exact hnow

/-- A round stands as foreseen through any number of punctual turns. -/
theorem foreseen_onTime (n : Nat) (a : Activity) (hr : Reachable r)
    (ha : r.activities[n]? = some a) (h : Foreseen purpose outcomes r a.progress)
    (honTime : OnTime r s) :
    ∃ b, s.activities[n]? = some b ∧ Foreseen purpose outcomes s b.progress := by
  induction honTime with
  | refl => exact ⟨a, ha, h⟩
  | tail hbefore hturn ih =>
      rcases ih with ⟨b, hb, hforeseen⟩
      exact foreseen_turn n b (hr.reaches (OnTime.reaches hbefore)) hb hforeseen hturn

/-! ## Rounds That Are Waited For -/

/-- As long as calls have not all settled a timer is set for one of them. -/
theorem exists_timer_of_open (legs : List Leg) (os : List Outcome)
    (h : legs.map (Leg.forecast r.board.flight?) = os.map some) (hopen : outcomes? legs = none) :
    ∃ t, t ∈ legs.flatMap (Leg.timers r.board.flight?) := by
  induction legs generalizing os with
  | nil => contradiction
  | cons leg legs ih =>
      cases os with
      | nil => contradiction
      | cons o os =>
          rw [List.map_cons, List.map_cons, List.cons.injEq] at h
          rcases leg with ⟨target, result | n⟩
          · -- This call has settled, so one of the others has not.
            rw [outcomes?_cons] at hopen
            rcases ih os h.2 (Option.map_eq_none_iff.mp hopen) with ⟨t, ht⟩
            exact ⟨t, List.mem_append_right _ ht⟩
          · -- A call that is forecast has a flight, and that has the timer of its answer.
            cases hflight : r.board.flight? n with
            | none =>
                simp only [Leg.forecast, hflight, Option.map_none] at h
                exact absurd h.1 (Option.some_ne_none o).symm
            | some f =>
                refine ⟨f.reply, List.mem_append_left _ ?_⟩
                simp only [Leg.timers, hflight, Option.map_some, Option.getD_some]
                exact List.mem_cons_self

/-- A round that stands as foreseen and has nothing left to wait for has ended. -/
theorem ended_of_foreseen (n : Nat) (a : Activity) (ha : r.activities[n]? = some a)
    (h : Foreseen purpose outcomes r a.progress) (hstands : a.progress.Stands)
    (hend : r.errand? n = none ∨ r.allTimers = []) :
    a.progress = .ended (purpose.conclude outcomes) := by
  rcases a with ⟨name, p⟩
  cases h with
  | ended => rfl
  | givenUp => exact absurd rfl hstands.1
  | taken => exact absurd rfl hstands.2
  | waits legs h hopen =>
      have herrand : r.errand? n = some (.calls legs purpose none) := by
        unfold errand? activity?
        rw [ha]
      rcases hend with hnone | hsilent
      · rw [herrand] at hnone
        contradiction
      · rcases exists_timer_of_open legs outcomes h.forecast hopen with ⟨t, ht⟩
        have hmem : t ∈ r.timersOf n := by
          rw [timersOf, ha, Option.elim_some]
          exact ht
        have hall := (mem_allTimers r t n).mpr hmem
        rw [hsilent] at hall
        exact absurd hall List.not_mem_nil

theorem stands_progressOf (what : Upshot ⊕ Errand) : (progressOf what).Stands := by
  cases what with
  | inl outcome => exact ⟨Progress.noConfusion, Progress.noConfusion⟩
  | inr errand => exact ⟨Progress.noConfusion, Progress.noConfusion⟩

/-- What comes by itself asks nobody for anything, and gives nothing up. -/
structure Unforced (r s : Rehearsal) : Prop where
  asked : s.board.asked = r.board.asked
  stands : ∀ (n : Nat) (a : Activity), r.activities[n]? = some a → a.progress.Stands →
    ∃ b, s.activities[n]? = some b ∧ b.progress.Stands

theorem course_unforced : Course Unforced where
  refl _ := ⟨rfl, fun _ a ha hstands => ⟨a, ha, hstands⟩⟩
  trans h h' := by
    refine ⟨h'.asked.trans h.asked, fun n a ha hstands => ?_⟩
    rcases h.stands n a ha hstands with ⟨b, hb, hstands'⟩
    exact h'.stands n b hb hstands'
  work r m errand h := by
    have hsteady := work_steady r errand
    rcases activity?_of_errand? r m errand h with ⟨name, hm⟩
    have hset := setProgress_of_activity r (r.work errand).1 m (progressOf (r.work errand).2) _ hm
      hsteady.activities
    rw [hset]
    refine ⟨hsteady.asked, fun n a ha hstands => ?_⟩
    by_cases hn : m = n
    · -- What works runs on or ends.
      have hlt : n < r.activities.length := (List.getElem?_eq_some_iff.mp ha).1
      rw [hn]
      exact ⟨_, List.getElem?_set_self hlt, stands_progressOf _⟩
    · exact ⟨a, (List.getElem?_set_ne hn).trans ha, hstands⟩
  queue _ _ := ⟨rfl, fun _ a ha hstands => ⟨a, ha, hstands⟩⟩
  clock _ _ _ := ⟨rfl, fun _ a ha hstands => ⟨a, ha, hstands⟩⟩

end Rounds

/-- The rehearsal once a command that is performed has been waited for. -/
def awaited (r : Rehearsal) (c : Command) : Rehearsal :=
  awaitFor (some r.activities.length) ((r.launch none c).allTimers.length + 1) r.activities.length
    (r.launch none c)

theorem Course.awaited {R : Rehearsal → Rehearsal → Prop} (pass : Course R) (r : Rehearsal)
    (c : Command) : R (r.enlist none c) (r.awaited c) := by
  unfold Rehearsal.awaited
  rw [launch_eq]
  exact pass.trans (pass.settle _) (pass.awaitFor _ _ _ _)

theorem awaited_ends (r : Rehearsal) (hr : Reachable r) (c : Command) :
    (r.awaited c).errand? r.activities.length = none ∨ (r.awaited c).allTimers = [] :=
  awaitFor_ends _ _ _ _ (hr.reaches (launch_reaches r none c)) (Nat.lt_succ_self _)

theorem step_perform (r : Rehearsal) (c : Command) :
    r.step (.perform c) = match (r.awaited c).activity? r.activities.length with
      | some ⟨_, .ended outcome⟩ =>
        ((r.awaited c).setProgress r.activities.length .taken, outcome)
      | some ⟨_, .givenUp⟩ => ((r.awaited c).setProgress r.activities.length .taken, .cancelled)
      | _ => (r.awaited c, .unknown) := rfl

section Commands

variable {purpose : Purpose} {outcomes : List Outcome} {r s : Rehearsal} {c : Command}

/-- What is started as foreseen stands so in the background, whatever else happens. -/
theorem foreseen_enlist (hr : Reachable r) (name : Option String)
    (h : Foreseen purpose outcomes (r.start c).1 (progressOf (r.start c).2))
    (honTime : OnTime (r.enlist name c) s) :
    ∃ a, s.activities[r.activities.length]? = some a ∧ Foreseen purpose outcomes s a.progress := by
  rcases personal_foreseen.enlist name c h with ⟨a, ha, hforeseen⟩
  have henlist := hr.reaches (Turn.enlist r name c).reaches
  exact foreseen_onTime _ a henlist ha hforeseen honTime

/-- What is started as foreseen and waited for comes to what was foreseen, and nobody is asked for
    anything after the start. -/
theorem foreseen_performed (hr : Reachable r)
    (h : Foreseen purpose outcomes (r.start c).1 (progressOf (r.start c).2)) :
    (r.step (.perform c)).2 = purpose.conclude outcomes
      ∧ (r.step (.perform c)).1.board.asked = (r.start c).1.board.asked := by
  have honTime := passage_onTime.toCourse.awaited r c
  have hunforced := course_unforced.awaited r c
  have hends := awaited_ends r hr c
  rw [step_perform]
  generalize r.awaited c = s at honTime hunforced hends
  rcases foreseen_enlist hr none h honTime with ⟨a, ha, hforeseen⟩
  rcases hunforced.stands _ _ (enlist_activity r none c) (stands_progressOf _) with
    ⟨b, hb, hstands⟩
  rw [Option.some.inj (hb.symm.trans ha)] at hstands
  -- It was neither given up nor taken, so of what is foreseen only its end is left.
  have hended := ended_of_foreseen _ a ha hforeseen hstands hends
  rcases a with ⟨name, p⟩
  simp only at hended
  rw [hended] at ha
  simp only [activity?, ha, true_and]
  rw [(setProgress_keeps s _ _).2.2.1, hunforced.asked]
  rfl

end Commands

/-! ## Rounds of a Registry -/

/-- The clients were matched with a registry at the start, and nothing but turns has happened
    since. -/
def Wired (registry : Registry) (r : Rehearsal) : Prop :=
  ∃ (first : Rehearsal) (clients : List (Target × Backend)) (maxCalls timeout : Nat),
    first.IsFresh
      ∧ Switchboard.ofRegistry registry.targets clients maxCalls timeout = .ok first.board
      ∧ Reaches first r

/-- How long the calls of a round may take. -/
def limit (r : Rehearsal) (round : Round) : Nat :=
  round.timeout r.board.defaultTimeout

/-- What becomes of the calls of a round that is made now. -/
def slots (r : Rehearsal) (round : Round) : List Slot :=
  round.slots (r.limit round) r.board.permits.free r.board.nextCall r.board.lines

/-- What the client of a target answers to the call of a round that is made now. -/
def answerTo? (r : Rehearsal) (round : Round) (target : Target) : Option Answer :=
  (r.board.lines.findIdx? fun line => line.target == target).bind fun i =>
    r.board.lines[i]?.map fun line =>
      line.answer (round.call (r.board.nextCall + i) target (r.limit round))

section Registries

variable {registry : Registry} {r s : Rehearsal}

theorem Wired.reachable (h : Wired registry r) : Reachable r := by
  rcases h with ⟨first, _, _, _, hfresh, _, hreaches⟩
  exact ⟨first, hfresh, hreaches⟩

theorem Wired.targets (h : Wired registry r) : r.board.targets = registry.targets := by
  rcases h with ⟨first, clients, maxCalls, timeout, _, hboard, hreaches⟩
  rw [Switchboard.targets_eq, (setup_reaches hreaches).2, ← Switchboard.targets_eq]
  exact Switchboard.ofRegistry_targets registry.targets clients maxCalls timeout first.board hboard

theorem Wired.distinct (h : Wired registry r) : r.board.targets.Nodup :=
  h.targets ▸ registry.distinct

/-- A round that is started stands as foreseen, and those clients are asked whose calls were not
    turned away. -/
theorem start_round (h : Wired registry r) (round : Round) :
    Foreseen round.purpose ((r.slots round).map Slot.outcome) (r.start round.command).1
        (progressOf (r.start round.command).2)
      ∧ (r.start round.command).1.board.asked
        = ((r.slots round).filterMap round.arrival?).reverse ++ r.board.asked := by
  have hbelow := (orderly_of_reachable r h.reachable).flights
  -- A broadcast and a probe start alike.
  have hstart : r.start round.command
      = (placeAll round.kind round.pattern round.payload (r.limit round) r
          r.board.targets).1.work
        (.calls (placeAll round.kind round.pattern round.payload (r.limit round) r
          r.board.targets).2 round.purpose none) := by
    cases round <;> rfl
  rcases placeAll_destined round (r.limit round) r [] r.board.lines rfl h.distinct hbelow with
    ⟨hdestined, hasked⟩
  have hstarts := placeAll_starts round.kind round.pattern round.payload (r.limit round) r
    r.board.targets
  rw [hstart]
  exact ⟨foreseen_work _ hstarts.distinct hdestined, (work_steady _ _).asked.trans hasked⟩

/-- A round in the background stands as foreseen, whatever else happens. -/
theorem round_onTime (h : Wired registry r) (round : Round) (name : Option String)
    (honTime : OnTime (r.enlist name round.command) s) :
    ∃ a, s.activities[r.activities.length]? = some a
      ∧ Foreseen round.purpose ((r.slots round).map Slot.outcome) s a.progress :=
  foreseen_enlist h.reachable name (start_round h round).1 honTime

/-- A round that is waited for comes to what its slots say. -/
theorem step_round (h : Wired registry r) (round : Round) :
    (r.step (.perform round.command)).2
        = round.purpose.conclude ((r.slots round).map Slot.outcome)
      ∧ (r.step (.perform round.command)).1.board.asked
        = ((r.slots round).filterMap round.arrival?).reverse ++ r.board.asked := by
  rcases start_round h round with ⟨hforeseen, hasked⟩
  rcases foreseen_performed h.reachable hforeseen with ⟨hupshot, hlater⟩
  exact ⟨hupshot, hlater.trans hasked⟩

/-! ## What the Slots Say -/

theorem slots_targets (h : Wired registry r) (round : Round) :
    (r.slots round).map Slot.target = registry.targets :=
  (round.slots_targets _ _ _ _).trans h.targets

/-- What becomes of a call that is not turned away is a matter of the client of its own target, and
    of the time limit. -/
theorem slots_answerTo? (h : Wired registry r) (round : Round) (slot : Slot)
    (hslot : slot ∈ r.slots round) (hresult : slot.result ≠ none) :
    ∃ a, r.answerTo? round slot.target = some a
      ∧ slot = ⟨slot.target, some (a.within slot.target (r.limit round))⟩ := by
  rcases List.mem_iff_getElem?.mp hslot with ⟨i, hi⟩
  have htargets : ((r.slots round).map Slot.target)[i]? = (r.board.lines.map Line.target)[i]? :=
    congrArg (·[i]?) (round.slots_targets _ _ _ _)
  rw [List.getElem?_map, List.getElem?_map, hi] at htargets
  rcases Option.map_eq_some_iff.mp htargets.symm with ⟨line, hline, hsame⟩
  have hown := round.slots_own _ _ _ _ i slot line hi hline hresult
  have hfound := r.board.findIdx?_of_line h.distinct i line hline
  rw [← hsame]
  refine ⟨_, ?_, hown⟩
  unfold answerTo?
  rw [hfound, Option.bind_some, hline, Option.map_some]

/-- The report of a round says that all is well if every slot does. -/
theorem isComplete_conclude (round : Round) (slots : List Slot) :
    (round.purpose.conclude (slots.map Slot.outcome)).isComplete = true
      ↔ ∀ slot ∈ slots, slot.outcome.isDelivered = true := by
  have hup : ∀ o : Outcome, (HealthReport.ofOutcome o).error.isNone = o.isDelivered := by
    intro o
    rcases o with ⟨target, e | v⟩ <;> rfl
  cases round with
  | broadcast pattern payload timeout =>
      simp only [Round.purpose, Purpose.conclude, Upshot.isComplete, Report.isComplete,
        List.all_map, List.all_eq_true, Function.comp_apply]
  | probe timeout =>
      simp only [Round.purpose, Purpose.conclude, Upshot.isComplete, HealthReport.healthy,
        List.all_map, List.all_eq_true, Function.comp_apply, hup]

/-- A fan-out is ordered, isolated and exactly once. Whatever the registry, the clients and the
    state the gateway is in, a round

    * comes to one outcome for each registered target, in the order of the registry,
    * has asked each client once if its call was not turned away for want of a permit, and nobody
      else,
    * comes to the same when it runs in the background, whatever else happens meanwhile,
    * has for a target whose call is not turned away the outcome that it has in any other round in
      which that is so, of any other registry even, if the client of the target answers the same
      and the time limit is the same,
    * turns nobody away if as many permits are free as there are targets, and
    * is reported complete exactly if every outcome is a success. -/
theorem fan_out (registry : Registry) (round : Round) (r : Rehearsal) (h : Wired registry r) :
    (r.slots round).map Slot.target = registry.targets
      ∧ (r.step (.perform round.command)).2
        = round.purpose.conclude ((r.slots round).map Slot.outcome)
      ∧ (r.step (.perform round.command)).1.board.asked
        = ((r.slots round).filterMap round.arrival?).reverse ++ r.board.asked
      ∧ (∀ name t, OnTime (r.enlist name round.command) t →
        ∃ a, t.activities[r.activities.length]? = some a ∧ ∀ outcome, a.progress = .ended outcome →
          outcome = round.purpose.conclude ((r.slots round).map Slot.outcome))
      ∧ (∀ registry' round' r', Wired registry' r' → r'.limit round' = r.limit round →
        ∀ slot ∈ r.slots round, ∀ slot' ∈ r'.slots round', slot'.target = slot.target →
          r'.answerTo? round' slot.target = r.answerTo? round slot.target →
          slot.result ≠ none → slot'.result ≠ none → slot' = slot)
      ∧ (registry.targets.length ≤ r.board.permits.free →
        ∀ slot ∈ r.slots round, slot.result ≠ none)
      ∧ ((r.step (.perform round.command)).2.isComplete = true
        ↔ ∀ slot ∈ r.slots round, slot.outcome.isDelivered = true) := by
  rcases step_round h round with ⟨hupshot, hasked⟩
  refine ⟨slots_targets h round, hupshot, hasked, ?_, ?_, ?_, ?_⟩
  · intro name t honTime
    rcases round_onTime h round name honTime with ⟨a, ha, hforeseen⟩
    refine ⟨a, ha, fun outcome hended => ?_⟩
    rw [hended] at hforeseen
    cases hforeseen with
    | ended => rfl
  · intro registry' round' r' h' hlimit slot hslot slot' hslot' htarget hanswer hresult hresult'
    rcases slots_answerTo? h round slot hslot hresult with ⟨a, ha, heq⟩
    rcases slots_answerTo? h' round' slot' hslot' hresult' with ⟨a', ha', heq'⟩
    -- Both slots are what one answer comes to within one time limit.
    rw [htarget, hanswer, ha] at ha'
    rw [heq', heq, htarget, hlimit, Option.some.inj ha']
  · intro hpermits
    refine round.slots_admitted _ _ _ r.board.lines ?_
    have hlength : r.board.lines.length = registry.targets.length := by
      rw [← h.targets, Switchboard.targets, List.length_map]
    omega
  · rw [hupshot]
    exact isComplete_conclude round (r.slots round)

end Registries

/-- A gateway with a backend that is too slow, one that answers that it is overloaded, and one that
    sends back what it gets. -/
def panel : Rehearsal where
  board := .ofLines [(.notification, .ofScript [⟨some 200, none⟩]),
    (.inventory, .ofScript [⟨some 50, some (.error .overloaded)⟩]), (.aiMl, .echo)] 8 100
  api := { secret := "k", probeTimeout := 2000, recorded := false, wall := 0 }

/-- All three clients are asked, and each has the slot that it would have by itself. -/
theorem fan_out_panel :
    Wired .default panel
      ∧ (panel.step (.perform (.broadcast "globalEvent" (.object []) none))).2
        = .report ⟨[⟨.notification, .error (.timeout .notification 100)⟩,
            ⟨.inventory, .error .overloaded⟩,
            ⟨.aiMl, .ok (.object [("kind", .string "emit"), ("pattern", .string "globalEvent"),
              ("payload", .object [])])⟩]⟩
      ∧ ∀ slot ∈ panel.slots (.broadcast "globalEvent" (.object []) none), slot.result ≠ none := by
  have hwired : Wired .default panel := by
    refine ⟨panel, [(.notification, .ofScript [⟨some 200, none⟩]),
      (.inventory, .ofScript [⟨some 50, some (.error .overloaded)⟩]), (.aiMl, .echo)], 8, 100,
      ⟨rfl, rfl, rfl, rfl⟩, rfl, Relation.ReflTransGen.refl⟩
  rcases fan_out .default (.broadcast "globalEvent" (.object []) none) panel hwired with
    ⟨_, hreport, _, _, _, hadmitted, _⟩
  exact ⟨hwired, hreport, hadmitted (by decide)⟩

/-- A gateway with one backend, which answers that it is overloaded. -/
def swamped : Rehearsal where
  board := .ofLines [(.inventory, .ofScript [⟨none, some (.error .overloaded)⟩])] 8 100
  api := { secret := "k", probeTimeout := 2000, recorded := false, wall := 0 }

/-- A client that was asked may have a slot that reads as overloaded. -/
theorem overloaded_by_client :
    Wired ⟨[⟨.inventory, "localhost", 3002⟩], by decide⟩ swamped
      ∧ (swamped.step (.perform (.broadcast "globalEvent" (.object []) none))).2
        = .report ⟨[⟨.inventory, .error .overloaded⟩]⟩
      ∧ (swamped.step (.perform (.broadcast "globalEvent" (.object []) none))).1.board.asked
        = [.reached .event .inventory "globalEvent" (.object [])] := by
  refine ⟨⟨swamped, [(.inventory, .ofScript [⟨none, some (.error .overloaded)⟩])], 8, 100,
    ⟨rfl, rfl, rfl, rfl⟩, rfl, Relation.ReflTransGen.refl⟩, rfl, rfl⟩

end Rehearsal

end Gateway
