import Gateway.Proofs.Rehearsal.Boards
import Gateway.Proofs.Rehearsal.Routing

/-!
# Calls End When They Are Due

A call ends when its client answers, or when its time is over if that is first, and if the two fall
together the answer counts. Here this is said to the millisecond and of everything that goes with
it. In one turn the caller gets its outcome, the permit of the call is free again and its flight is
gone, and that turn comes when the clock stands at the time at which the call is due (`Departs`).
Before it the call runs, whatever else happens, and after it nothing that comes for the call finds
anything. A client whose time is over is dropped with the flight: that it finished a call is seen
only if its answer came in time.

How a call stands is a matter of that call alone (`Timely`), and the turns that go on keep it: the
clock does not pass the timer that the call has, and what others do leaves the flight alone. So a
call that runs is not overdue, and one that has ended was due. The turn in between is its own, and
is taken apart once (`fares_of_turn`).

A time limit of zero is no special case, and neither is one that nobody will live to see. A call
that is due as it is made has ended as it is made, and leaves nothing behind.

## Main definitions

* `Answer.takes`, `Flight.due`: How long a call takes, and when it is due.
* `Rehearsal.Timely`: How a call stands that ends when it is due.
* `Rehearsal.Departs`, `Rehearsal.Fares`: The turn in which a call ends, and all turns it may take.
* `Rehearsal.Gone`: There is no flight under a number, and never will be.
* `Rehearsal.EndsOnTime`: All that is said of a call.

## Theorems

* `Rehearsal.timely_onward`: A call stands as it should, turn after turn.
* `Rehearsal.fares_of_turn`: How a call comes out of a turn.
* `Rehearsal.Gone.reaches`: A call that is gone stays so.
* `Rehearsal.performed_on_time`, `Rehearsal.advanced_on_time`: Calls that are waited for, and calls
  in the background.
* `Rehearsal.ends_on_time`: A call ends at one exact time.
-/

namespace Gateway

/-- How long a call takes that its client treats so: until the answer comes, or until its time is
    over if that is first. -/
def Answer.takes (a : Answer) (limit : Nat) : Nat :=
  min (a.after.getD 0) limit

theorem Answer.isPrompt_iff (a : Answer) (limit : Nat) :
    a.isPrompt limit = true ↔ a.takes limit = 0 := by
  simp only [isPrompt, takes, Bool.or_eq_true, beq_iff_eq]
  omega

namespace Flight

/-- When a flight settles: when its answer comes, or at its time limit if that is first. -/
def due (f : Flight) : Nat :=
  match f.limit with
  | some t => min f.reply.due t.due
  | none => f.reply.due

/-- A flight settles by the first of its timers. -/
theorem due_spec (f : Flight) :
    (∃ t ∈ f.timers, t.due = f.due) ∧ ∀ t ∈ f.timers, f.due ≤ t.due := by
  unfold due timers
  cases f.limit with
  | none =>
      refine ⟨⟨f.reply, List.mem_cons_self, rfl⟩, fun t ht => ?_⟩
      exact Nat.le_of_eq (congrArg Timer.due (List.mem_singleton.mp ht).symm)
  | some limit =>
      simp only [Option.toList_some, List.mem_cons, List.not_mem_nil, or_false, exists_eq_or_imp,
        exists_eq_left, forall_eq_or_imp, forall_eq]
      omega

theorem outcome?_eq_none_iff_lt (f : Flight) (now : Nat) : f.outcome? now = none ↔ now < f.due := by
  rcases f.due_spec with ⟨⟨first, hfirst, hdue⟩, hle⟩
  rw [outcome?_eq_none_iff]
  constructor
  · intro h
    exact hdue ▸ h first hfirst
  · intro h t ht
    exact Nat.lt_of_lt_of_le h (hle t ht)

/-- When a flight is due it settles to its verdict. -/
theorem outcome?_of_due (f : Flight) : f.outcome? f.due = some (f.verdict, f.isAnswered) := by
  cases hout : f.outcome? f.due with
  | none => exact absurd ((f.outcome?_eq_none_iff_lt f.due).mp hout) (Nat.lt_irrefl _)
  | some out =>
      rcases f.verdict_of_outcome? f.due out.1 out.2 f.due_spec.2 hout with ⟨hverdict, hanswered⟩
      rw [← hverdict, ← hanswered]

theorem ofCall_due (line : Line) (call : Call) (now order : Nat) :
    (ofCall .full line call now order).due
      = now + min ((line.answer call).after.getD 0) call.context.timeout := by
  simp only [due, ofCall, Layers.full, if_true, Nat.add_min_add_left]
  rfl

end Flight

namespace Rehearsal

/-- The errand of one call that is under way. -/
def single (target : Target) (n : Nat) : Errand :=
  .calls [⟨target, .flying n⟩] .single none

section Turns

variable {r s t : Rehearsal}

/-! ## One Call -/

/-- How a call stands that is under way as a flight, or was. -/
inductive Timely (target : Target) (n : Nat) (f : Flight) (r : Rehearsal) : Progress → Prop
  /-- It is under way, and its time has not passed. -/
  | waits (hf : r.board.flight? n = some f) (hnow : r.now ≤ f.due) :
      Timely target n f r (.running (single target n))
  /-- It has come to what it was heading for, and not before its time. -/
  | ended (hnow : f.due ≤ r.now) : Timely target n f r (.ended (.call f.verdict))
  /-- It was given up. -/
  | givenUp : Timely target n f r .givenUp
  /-- Its outcome was taken. -/
  | taken : Timely target n f r .taken

variable {target : Target} {n k : Nat} {f : Flight}

/-- A call that is due has settled once it works. -/
theorem work_due (hf : r.board.flight? n = some f) (hnow : r.now = f.due) :
    r.work (single target n)
      = ({ r with board := (r.board.dismiss n).finish f f.verdict f.isAnswered },
        .inl (.call f.verdict)) := by
  have hout := f.outcome?_of_due
  rw [← hnow] at hout
  simp only [single, work, landLegs, Switchboard.land_of_due r.board n r.now f _ _ hf hout]
  rfl

/-- A call under way that is not due has nothing to do yet. -/
theorem work_early (hf : r.board.flight? n = some f) (hnow : r.now < f.due) :
    r.work (single target n) = (r, .inr (single target n)) :=
  work_pending r target n f hf ((f.outcome?_eq_none_iff_lt r.now).mpr hnow)

theorem personal_timely : Personal (Timely target n f) where
  congr h hnow hflights := by
    cases h with
    | waits hf hearly =>
        exact .waits ((hflights n (List.mem_singleton_self n)).trans hf) (hnow ▸ hearly)
    | ended hlate => exact .ended (hnow ▸ hlate)
    | givenUp => exact .givenUp
    | taken => exact .taken
  work hdistinct h := by
    cases h with
    | waits hf hearly =>
        rcases Nat.lt_or_eq_of_le hearly with hlt | hdue
        · rw [work_early hf hlt]
          exact .waits hf hearly
        · rw [work_due hf hdue]
          exact .ended (Nat.le_of_eq hdue.symm)
  givenUp _ := .givenUp
  taken _ := .taken

theorem timersOf_single {a : Activity} (ha : r.activities[k]? = some a)
    (hrunning : a.progress = .running (single target n)) (hf : r.board.flight? n = some f) :
    r.timersOf k = f.timers := by
  rw [timersOf, ha, Option.elim_some, hrunning, timersAt, single, timers_calls]
  simp only [Option.bind_none, Option.toList_none, List.nil_append, List.flatMap_cons,
    List.flatMap_nil, List.append_nil, Leg.timers, hf, Option.map_some, Option.getD_some]

/-- A call stands as it should after each turn that goes on. -/
theorem timely_onward {a : Activity} (hr : Reachable r) (ha : r.activities[k]? = some a)
    (h : Timely target n f r a.progress) (hturn : Onward r s) :
    ∃ b, s.activities[k]? = some b ∧ Timely target n f s b.progress := by
  refine personal_timely.turn hr ha h hturn.1.1 fun now hs => ?_
  have hpunctual := hturn.1.2 k
  have hforward := hturn.2
  rw [hs] at hpunctual hforward ⊢
  generalize hp : a.progress = p at h
  cases h with
  | waits hf hearly =>
      -- The clock does not pass the timer by which the call is due.
      rcases f.due_spec.1 with ⟨t, ht, hdue⟩
      have hle := hpunctual t (by rw [timersOf_single ha hp hf]; exact ht)
      exact .waits hf (by simp only at hle ⊢; omega)
  | ended hlate => exact .ended (Nat.le_trans hlate hforward)
  | givenUp => exact .givenUp
  | taken => exact .taken

/-! ## The End of a Call -/

theorem setProgress_activity_ne (r : Rehearsal) (m : Nat) (p : Progress) (h : m ≠ k) :
    (r.setProgress m p).activities[k]? = r.activities[k]? := by
  unfold setProgress
  cases r.activity? m with
  | none => rfl
  | some a => exact List.getElem?_set_ne h

theorem setProgress_activity_self {a : Activity} (ha : r.activities[k]? = some a)
    (hsame : s.activities = r.activities) (p : Progress) :
    (s.setProgress k p).activities[k]? = some ⟨a.name, p⟩ := by
  have hlt : k < r.activities.length := (List.getElem?_eq_some_iff.mp ha).1
  rw [setProgress_of_activity r s k p a ha hsame]
  exact List.getElem?_set_self hlt

theorem errand?_of_running {a : Activity} {errand : Errand} (ha : r.activities[k]? = some a)
    (hrunning : a.progress = .running errand) : r.errand? k = some errand := by
  rcases a with ⟨name, p⟩
  simp only at hrunning
  unfold errand? activity?
  rw [ha, hrunning]

/-- An activity that runs stands as it did after a turn that is not its own. -/
theorem activity_of_turn {a : Activity} {errand : Errand} (hturn : Turn r s)
    (ha : r.activities[k]? = some a) (herrand : r.errand? k = some errand) :
    s.activities[k]? = some a
      ∨ s = (r.work errand).1.setProgress k (progressOf (r.work errand).2)
      ∨ s = (r.release errand).setProgress k .givenUp := by
  have hlt : k < r.activities.length := (List.getElem?_eq_some_iff.mp ha).1
  cases hturn with
  | enlist name c =>
      left
      unfold enlist
      simp only [(start_fixed r c).activities]
      rw [List.getElem?_append_left hlt, ha]
  | work m other hother =>
      by_cases hm : m = k
      · subst hm
        rw [Option.some.inj (herrand.symm.trans hother)]
        exact Or.inr (Or.inl rfl)
      · left
        rw [setProgress_activity_ne _ m _ hm, (work_steady r other).activities, ha]
  | release m other hother =>
      by_cases hm : m = k
      · subst hm
        rw [Option.some.inj (herrand.symm.trans hother)]
        exact Or.inr (Or.inr rfl)
      · left
        rw [setProgress_activity_ne _ m _ hm, (release_steady r other).activities, ha]
  | take m b hb hidle =>
      by_cases hm : m = k
      · subst hm
        exact absurd (hidle.symm.trans herrand) (Option.some_ne_none errand).symm
      · left
        rw [setProgress_activity_ne _ m _ hm, ha]
  | occur o =>
      left
      rw [(occur_fixed r o).activities, ha]
  | clock now | wall wall | queue ready => exact Or.inl ha

/-- A call that is under way leaves: its flight is gone and its permit is free again. The clock
    stands still, and nothing else that is under way is touched. -/
structure Departs (k n : Nat) (r s : Rehearsal) : Prop where
  now : s.now = r.now
  free : s.board.permits.free = r.board.permits.free + 1
  flights : s.board.flights = r.board.flights.filter fun e => e.1 != n
  lines : s.board.lines = r.board.lines
  others : ∀ m, m ≠ k → s.activities[m]? = r.activities[m]?

theorem departs_setProgress (hr : Reachable r) (hf : r.board.flight? n = some f)
    (hholds : f.holdsPermit = true) (b : Switchboard) (p : Progress)
    (hpermits : b.permits = r.board.permits.release)
    (hflights : b.flights = (r.board.dismiss n).flights) (hlines : b.lines = r.board.lines) :
    Departs k n r (({ r with board := b } : Rehearsal).setProgress k p) where
  now := setProgress_now k p rfl
  free := by
    rw [setProgress_board, hpermits]
    exact Switchboard.free_release (covered_of_reachable r hr) n f hf hholds
  flights := by
    rw [setProgress_board, hflights]
    rfl
  lines := by rw [setProgress_board, hlines]
  others := fun _ hm => setProgress_activity_ne _ k p (Ne.symm hm)

/-- How a call that is under way comes out of a turn. -/
inductive Fares (target : Target) (n k : Nat) (f : Flight) (r s : Rehearsal) : Progress → Prop
  /-- It is under way as before. -/
  | goesOn : Fares target n k f r s (.running (single target n))
  /-- It was due and has settled. That it was finished is seen if its answer came in time. -/
  | settles (hnow : r.now = f.due) (hdeparts : Departs k n r s)
      (htrace : s.board.trace
        = (if f.isAnswered then [.finished f.client] else []) ++ r.board.trace) :
      Fares target n k f r s (.ended (.call f.verdict))
  /-- It was given up, and nobody sees it finished. -/
  | givenUp (hdeparts : Departs k n r s) (htrace : s.board.trace = r.board.trace) :
      Fares target n k f r s .givenUp

theorem fares_of_turn {a : Activity} (hr : Reachable r) (ha : r.activities[k]? = some a)
    (hrunning : a.progress = .running (single target n)) (hf : r.board.flight? n = some f)
    (hearly : r.now ≤ f.due) (hholds : f.holdsPermit = true) (hturn : Turn r s) :
    ∃ b, s.activities[k]? = some b ∧ Fares target n k f r s b.progress := by
  rcases activity_of_turn hturn ha (errand?_of_running ha hrunning) with hsame | hwork | hrelease
  · exact ⟨a, hsame, hrunning ▸ .goesOn⟩
  · rcases Nat.lt_or_eq_of_le hearly with hlt | hdue
    · -- It is not due, so it waits on.
      rw [work_early hf hlt] at hwork
      exact ⟨_, hwork ▸ setProgress_activity_self ha rfl _, .goesOn⟩
    · rw [work_due hf hdue] at hwork
      rw [hwork]
      refine ⟨⟨a.name, .ended (.call f.verdict)⟩, ?_,
        .settles hdue (departs_setProgress hr hf hholds _ _ ?_ ?_ ?_) ?_⟩
      · refine setProgress_activity_self ha ?_ _
        rfl
      · rw [Switchboard.finish_permits, if_pos hholds]
        rfl
      · rw [Switchboard.finish_flights]
      · rw [Switchboard.finish_lines]
        rfl
      · rw [setProgress_board, Switchboard.finish_trace]
        rfl
  · have habandon : r.release (single target n)
        = { r with board := (r.board.dismiss n).giveBack f.holdsPermit } := by
      rw [← Switchboard.abandon_of_flight r.board n f hf]
      rfl
    rw [habandon] at hrelease
    rw [hrelease]
    refine ⟨⟨a.name, .givenUp⟩, ?_, .givenUp (departs_setProgress hr hf hholds _ _ ?_ ?_ ?_) ?_⟩
    · refine setProgress_activity_self ha ?_ _
      rfl
    · rw [Switchboard.giveBack_permits, if_pos hholds]
      rfl
    · rw [Switchboard.giveBack_flights]
    · rw [Switchboard.giveBack_lines]
      rfl
    · rw [setProgress_board, Switchboard.giveBack_trace]
      rfl

/-! ## After the End -/

/-- In no turn does a flight come back that has gone. -/
theorem turn_spares (hturn : Turn r s) : Spares (fun _ => False) r s := by
  have hset : ∀ {u : Rehearsal} (m : Nat) (p : Progress), Spares (fun _ => False) r u →
      Spares (fun _ => False) r (u.setProgress m p) := by
    intro u m p hspares
    rcases setProgress_eq u m p with ⟨activities, hset⟩
    rw [hset]
    exact ⟨hspares.orders, hspares.kept, hspares.new⟩
  cases hturn with
  | enlist name c =>
      have hstarts := (start_starts r c).spares.mono fun _ hfalse => False.elim hfalse
      exact ⟨hstarts.orders, hstarts.kept, hstarts.new⟩
  | work m errand herrand => exact hset m _ ((work_spares r errand).1.mono fun _ => False.elim)
  | release m errand herrand => exact hset m _ ((release_spares r errand).mono fun _ => False.elim)
  | take m a ha herrand => exact hset m _ (.of_flights (Nat.le_refl _) rfl)
  | occur o => exact occur_spares r o
  | clock now | wall wall | queue ready => exact .of_flights (Nat.le_refl _) rfl

/-- The flight of a call is gone, and its number is not given out again. -/
structure Gone (n : Nat) (r : Rehearsal) : Prop where
  flight : ∀ e ∈ r.board.flights, e.1 ≠ n
  number : n < r.orders

theorem Gone.turn (h : Gone n r) (hturn : Turn r s) : Gone n s := by
  have hspares := turn_spares hturn
  have hnumber := h.number
  have horders := hspares.orders
  refine ⟨fun e he => ?_, by omega⟩
  rcases hspares.new e he with hold | hnew
  · exact h.flight e hold
  · omega

theorem Gone.reaches (h : Gone n r) (hreaches : Reaches r s) : Gone n s := by
  induction hreaches with
  | refl => exact h
  | tail _ hturn ih => exact ih.turn hturn

/-- Whatever comes for a call that is gone comes too late to change anything. -/
theorem Gone.land_abandon (h : Gone n r) :
    (∀ now, r.board.land n now = (r.board, none)) ∧ r.board.abandon n = r.board := by
  have hnone : r.board.flight? n = none := by
    rw [Switchboard.flight?_eq_none_iff]
    intro hmem
    rcases List.mem_map.mp hmem with ⟨e, he, hn⟩
    exact h.flight e he hn
  exact ⟨fun now => Switchboard.land_of_no_flight r.board n now hnone,
    Switchboard.abandon_of_no_flight r.board n hnone⟩

theorem Departs.gone (h : Departs k n r s) (hnumber : n < s.orders) : Gone n s := by
  refine ⟨fun e he => ?_, hnumber⟩
  rw [h.flights] at he
  exact bne_iff_ne.mp (List.mem_filter.mp he).2

/-- A call that does not run after a turn is gone, if it was when it did not run before. -/
theorem gone_of_turn {a : Activity} (hr : Reachable r) (ha : r.activities[k]? = some a)
    (h : Timely target n f r a.progress) (hholds : f.holdsPermit = true)
    (hgone : r.errand? k = none → Gone n r) (hturn : Turn r s) (hidle : s.errand? k = none) :
    Gone n s := by
  generalize hp : a.progress = p at h
  have hstood : (∀ errand, p ≠ .running errand) → Gone n s := fun hnot =>
    (hgone (errand?_eq_none r k a ha (hp ▸ hnot))).turn hturn
  cases h with
  | waits hf hearly =>
      -- It ran before, so this is the turn in which it has ended.
      have hnumber := (orderly_of_reachable r hr).below n
        (mem_numbers ha n (hp ▸ List.mem_singleton_self n))
      have horders := (turn_spares hturn).orders
      rcases fares_of_turn hr ha hp hf hearly hholds hturn with ⟨b, hb, hfares⟩
      generalize hq : b.progress = q at hfares
      cases hfares with
      | goesOn =>
          rw [errand?_of_running hb hq] at hidle
          exact absurd hidle (Option.some_ne_none _)
      | settles _ hdeparts _ => exact hdeparts.gone (by omega)
      | givenUp hdeparts _ => exact hdeparts.gone (by omega)
  | ended | givenUp | taken => exact hstood fun _ => Progress.noConfusion

end Turns

/-! ## From the Start to the End -/

section Steps

variable {r : Rehearsal}

theorem launch_now (hr : Reachable r) (name : Option String) (c : Command) :
    (r.launch name c).now = r.now := by
  have hsettle := settle_timers (r.enlist name c) (hr.reaches (Turn.enlist r name c).reaches)
  rw [launch_eq]
  exact hsettle.2.1.trans (start_fixed r c).now

theorem launch_forth (r : Rehearsal) (name : Option String) (c : Command) :
    Forth (r.enlist name c) (r.launch name c) := by
  rw [launch_eq]
  exact passage_forth.toCourse.settle _

theorem launch_unforced (r : Rehearsal) (name : Option String) (c : Command) :
    Unforced (r.enlist name c) (r.launch name c) := by
  rw [launch_eq]
  exact course_unforced.settle _

/-- Letting time pass gives nothing up. -/
theorem advance_unforced (r : Rehearsal) (ms : Nat) : Unforced r (r.advance ms) := by
  rcases course_unforced.tickUntil (r.allTimers.length + 1) (r.now + ms) r with ⟨hasked, hstands⟩
  exact ⟨hasked, hstands⟩

end Steps

/-- The flight of a call that is made now, if its client does not settle it at once. -/
def flightFor (r : Rehearsal) (e : Entrance) (pattern : String) (payload : Json) (line : Line) :
    Flight :=
  .ofCall .full line (r.callFor e pattern payload) r.now r.orders

section OneCall

variable {registry : Registry} {r s t : Rehearsal} (e : Entrance) (pattern : String)
  (payload : Json) (index : Nat) (line : Line)

/-- A call that is started stands as it should. If it has settled at once there is no flight of it,
    and if it has not there is one. -/
theorem timely_start (h : Wired registry r) (hfree : r.board.permits.free ≠ 0)
    (hline : r.board.lines[index]? = some line) (hsame : line.target = e.target) :
    Timely e.target r.orders (r.flightFor e pattern payload line)
        (r.start (e.command pattern payload)).1
        (progressOf (r.start (e.command pattern payload)).2)
      ∧ ((∃ outcome, (r.start (e.command pattern payload)).2 = .inl outcome) →
        Gone r.orders (r.start (e.command pattern payload)).1) := by
  rcases start_dealt e pattern payload h hfree index line hline hsame with
    ⟨did, hdealt, hboard, hplaced⟩
  have hbelow := (orderly_of_reachable r h.reachable).flights
  have hdue := Flight.ofCall_due line (r.callFor e pattern payload) r.now r.orders
  rcases hplaced with ⟨hsettled, hprompt⟩ | ⟨hflying, _, hf⟩
  · rw [hboard, hsettled]
    constructor
    · -- It settled at once, which is when it was due.
      have hverdict := Flight.ofCall_verdict line (r.callFor e pattern payload) r.now r.orders
      have hnow : (r.flightFor e pattern payload line).due ≤ r.now := by
        simp only [Answer.isPrompt, Bool.or_eq_true, beq_iff_eq] at hprompt
        rw [flightFor, hdue]
        change _ + min _ (r.limitFor e) ≤ _
        omega
      have hstands : Timely e.target r.orders (r.flightFor e pattern payload line)
          { r with board := did.1, orders := r.orders + 2 }
          (.ended (.call (r.flightFor e pattern payload line).verdict)) := .ended hnow
      rw [flightFor, hverdict] at hstands
      exact hstands
    · rintro -
      rcases hdealt.placed with ⟨_, _, hflights, _⟩ | ⟨_, hnot, _⟩
      · refine ⟨fun entry hentry => Nat.ne_of_lt (hbelow entry ?_), by simp only; omega⟩
        exact hflights ▸ hentry
      · exact absurd (hprompt.symm.trans hnot) Bool.noConfusion
  · rw [hboard, hflying]
    refine ⟨.waits hf ?_, ?_⟩
    · rw [flightFor, hdue]
      exact Nat.le_add_right _ _
    · rintro ⟨outcome, hc⟩
      exact absurd hc Sum.inr_ne_inl

/-- However the rehearsal goes on, the call stands as it should, and once it does not run its flight
    is gone. -/
theorem timely_of_forth (h : Wired registry r) (hfree : r.board.permits.free ≠ 0)
    (hline : r.board.lines[index]? = some line) (hsame : line.target = e.target)
    (name : Option String) (hforth : Forth (r.enlist name (e.command pattern payload)) s) :
    ∃ a, s.activities[r.activities.length]? = some a
      ∧ Timely e.target r.orders (r.flightFor e pattern payload line) s a.progress
      ∧ (s.errand? r.activities.length = none → Gone r.orders s) := by
  rcases timely_start e pattern payload index line h hfree hline hsame with ⟨htimely, hgone⟩
  have henlist := h.reachable.reaches (Turn.enlist r name (e.command pattern payload)).reaches
  induction hforth with
  | refl =>
      rcases personal_timely.enlist name (e.command pattern payload) htimely with ⟨a, ha, hstands⟩
      refine ⟨a, ha, hstands, fun hidle => ?_⟩
      cases hstart : (r.start (e.command pattern payload)).2 with
      | inl outcome =>
          rcases hgone ⟨outcome, hstart⟩ with ⟨hflight, hnumber⟩
          exact ⟨hflight, hnumber⟩
      | inr errand =>
          have hrunning := errand?_of_running (enlist_activity r name (e.command pattern payload))
            (congrArg progressOf hstart)
          exact absurd (hrunning.symm.trans hidle) (Option.some_ne_none errand)
  | tail hbefore hturn ih =>
      rcases ih with ⟨a, ha, hstands, hgone'⟩
      have hreached := henlist.reaches (Forth.reaches hbefore)
      rcases timely_onward hreached ha hstands hturn with ⟨b, hb, hstands'⟩
      exact ⟨b, hb, hstands', gone_of_turn hreached ha hstands rfl hgone' hturn.1.1⟩

/-- A call that runs has a timer that is set for when it is due. -/
theorem Timely.exists_timer {target : Target} {n k : Nat} {f : Flight} {a : Activity}
    (ha : r.activities[k]? = some a) (h : Timely target n f r a.progress)
    (hrunning : r.errand? k ≠ none) : ∃ t ∈ r.timersOf k, t.due = f.due := by
  generalize hp : a.progress = p at h
  cases h with
  | waits hf hearly =>
      rw [timersOf_single ha hp hf]
      exact f.due_spec.1
  | ended | givenUp | taken =>
      exact absurd (errand?_eq_none r k a ha (hp ▸ fun _ => Progress.noConfusion)) hrunning

/-- A call that was neither given up nor taken has ended, or it runs and has a timer. -/
theorem Timely.ended_or {target : Target} {n k : Nat} {f : Flight} {a : Activity}
    (ha : r.activities[k]? = some a) (h : Timely target n f r a.progress)
    (hstands : a.progress.Stands) :
    (a.progress = .ended (.call f.verdict) ∧ f.due ≤ r.now)
      ∨ (a.progress = .running (single target n) ∧ ∃ t ∈ r.timersOf k, t.due = f.due) := by
  generalize hp : a.progress = p at h hstands
  cases h with
  | waits hf hearly =>
      right
      rw [timersOf_single ha hp hf]
      exact ⟨rfl, f.due_spec.1⟩
  | ended hlate => exact Or.inl ⟨rfl, hlate⟩
  | givenUp => exact absurd rfl hstands.1
  | taken => exact absurd rfl hstands.2

/-- A call that is waited for is waited for until it is due, and no longer. -/
theorem performed_on_time (h : Wired registry r) (hfree : r.board.permits.free ≠ 0)
    (hline : r.board.lines[index]? = some line) (hsame : line.target = e.target) :
    (r.step (.perform (e.command pattern payload))).2
        = .call (r.flightFor e pattern payload line).verdict
      ∧ (r.step (.perform (e.command pattern payload))).1.now
        = (r.flightFor e pattern payload line).due := by
  have hr := h.reachable
  have htimely := fun s => timely_of_forth (s := s) e pattern payload index line h hfree hline hsame
  have hforth := passage_forth.toCourse.awaited r (e.command pattern payload)
  have hends := awaited_ends r hr (e.command pattern payload)
  have hbound : (r.awaited (e.command pattern payload)).now
      ≤ (r.flightFor e pattern payload line).due := by
    have hlaunched := hr.reaches (launch_reaches r none (e.command pattern payload))
    refine awaitFor_now_le _ _ _ _ _ hlaunched ?_ fun s hs hrunning => ?_
    · rw [launch_now hr, flightFor, Flight.ofCall_due]
      exact Nat.le_add_right _ _
    · rcases htimely s none ((launch_forth r none _).trans hs) with ⟨a, ha, hstands, _⟩
      rcases hstands.exists_timer ha hrunning with ⟨t, ht, hdue⟩
      exact ⟨t, ht, Nat.le_of_eq hdue⟩
  rcases (course_unforced.awaited r (e.command pattern payload)).stands _ _
    (enlist_activity r none _) (stands_progressOf _) with ⟨b, hb, hstands⟩
  rcases htimely _ none hforth with ⟨a, ha, hawaited, _⟩
  rw [Option.some.inj (hb.symm.trans ha)] at hstands
  rw [step_perform]
  generalize r.awaited (e.command pattern payload) = s at hends hbound ha hawaited
  rcases hawaited.ended_or ha hstands with ⟨hended, hlate⟩ | ⟨hrunning, t, ht, _⟩
  · rcases a with ⟨name, p⟩
    simp only at hended
    rw [hended] at ha
    simp only [activity?, ha, (setProgress_keeps s _ _).1, true_and]
    exact Nat.le_antisymm hbound hlate
  · -- It is waited for as long as it runs, and it has a timer as long.
    rcases hends with hidle | hsilent
    · rw [errand?_of_running ha hrunning] at hidle
      exact absurd hidle (Option.some_ne_none _)
    · have hmem := (mem_allTimers s t _).mpr ht
      rw [hsilent] at hmem
      exact absurd hmem List.not_mem_nil

/-- A call in the background has ended once its time has come, and runs before that. -/
theorem advanced_on_time (h : Wired registry r) (hfree : r.board.permits.free ≠ 0)
    (hline : r.board.lines[index]? = some line) (hsame : line.target = e.target) (name : String)
    (ms : Nat) :
    ∃ a, ((r.step (.background name (e.command pattern payload))).1.step
        (.advance ms)).1.activities[r.activities.length]? = some a
      ∧ a.progress = if (r.flightFor e pattern payload line).due ≤ r.now + ms
        then .ended (.call (r.flightFor e pattern payload line).verdict)
        else .running (single e.target r.orders) := by
  have hlaunched := h.reachable.reaches (launch_reaches r (some name) (e.command pattern payload))
  have hforth := (launch_forth r (some name) (e.command pattern payload)).trans
    (advance_forth _ hlaunched ms)
  have hunforced := course_unforced.trans
    (launch_unforced r (some name) (e.command pattern payload)) (advance_unforced _ ms)
  have hlater := advance_timers _ hlaunched ms
  have hnow : ((r.launch (some name) (e.command pattern payload)).advance ms).now = r.now + ms :=
    congrArg (· + ms) (launch_now h.reachable (some name) (e.command pattern payload))
  rw [launch_now h.reachable] at hlater
  rcases hunforced.stands _ _ (enlist_activity r (some name) _) (stands_progressOf _) with
    ⟨b, hb, hstands⟩
  rcases timely_of_forth e pattern payload index line h hfree hline hsame (some name) hforth with
    ⟨a, ha, htimely, _⟩
  rw [Option.some.inj (hb.symm.trans ha)] at hstands
  refine ⟨a, ha, ?_⟩
  rcases htimely.ended_or ha hstands with ⟨hended, hlate⟩ | ⟨hrunning, t, ht, hdue⟩
  · rw [hnow] at hlate
    rw [if_pos hlate, hended]
  · have hearly := hlater _ t ht
    rw [hdue] at hearly
    rw [if_neg (Nat.not_le_of_lt hearly), hrunning]

/-- A call that takes no time ends as it is made, and one that takes time is under way with a
    permit. -/
theorem started_on_time (h : Wired registry r) (hfree : r.board.permits.free ≠ 0)
    (hline : r.board.lines[index]? = some line) (hsame : line.target = e.target) :
    ((line.answer (r.callFor e pattern payload)).takes (r.limitFor e) = 0 →
        (r.start (e.command pattern payload)).2 = .inl (.call
          ((line.answer (r.callFor e pattern payload)).within e.target (r.limitFor e)))
        ∧ (r.start (e.command pattern payload)).1.board.permits.free = r.board.permits.free
        ∧ (r.start (e.command pattern payload)).1.board.flights = r.board.flights
        ∧ (r.start (e.command pattern payload)).1.board.trace
          = (if (line.answer (r.callFor e pattern payload)).after.getD 0 ≤ r.limitFor e
              then [.finished e.target] else []) ++ e.arrival pattern payload :: r.board.trace)
      ∧ ((line.answer (r.callFor e pattern payload)).takes (r.limitFor e) ≠ 0 →
        (r.start (e.command pattern payload)).2 = .inr (single e.target r.orders)
        ∧ (r.start (e.command pattern payload)).1.board.permits.free + 1 = r.board.permits.free
        ∧ (r.start (e.command pattern payload)).1.board.trace
          = e.arrival pattern payload :: r.board.trace) := by
  have hprompt := (line.answer (r.callFor e pattern payload)).isPrompt_iff (r.limitFor e)
  have harrival : (r.callFor e pattern payload).arrival line.target = e.arrival pattern payload :=
    congrArg (Trace.reached e.kind · pattern payload) hsame
  rcases start_dealt e pattern payload h hfree index line hline hsame with
    ⟨did, hdealt, hboard, hplaced⟩
  have hkept := hdealt.free
  change _ = if (line.answer (r.callFor e pattern payload)).isPrompt (r.limitFor e) = true
    then _ else _ at hkept
  rw [hboard]
  rcases hplaced with ⟨hsettled, hat⟩ | ⟨hflying, hnot, _⟩
  · rcases hdealt.placed with ⟨_, _, hflights, htrace⟩ | ⟨_, hnot, _⟩
    · rw [if_pos hat] at hkept
      rw [harrival, hsame] at htrace
      exact ⟨fun _ => ⟨hsettled, hkept, hflights, htrace⟩, fun hsome =>
        absurd (hprompt.mp hat) hsome⟩
    · exact absurd (hat.symm.trans hnot) Bool.noConfusion
  · rcases hdealt.placed with ⟨_, hat, _⟩ | ⟨_, _, _, htrace⟩
    · exact absurd (hat.symm.trans hnot) Bool.noConfusion
    · rw [if_neg (by rw [hnot]; exact Bool.false_ne_true)] at hkept
      rw [harrival] at htrace
      refine ⟨fun hnone => absurd ((hprompt.mpr hnone).symm.trans hnot) Bool.noConfusion,
        fun _ => ⟨hflying, ?_, htrace⟩⟩
      simp only
      omega

/-- The turn in which a call ends comes when it is due, or the caller gives it up in it. -/
theorem departs_on_time (h : Wired registry r) (hfree : r.board.permits.free ≠ 0)
    (hline : r.board.lines[index]? = some line) (hsame : line.target = e.target)
    (name : Option String) (hforth : Forth (r.enlist name (e.command pattern payload)) s)
    (hturn : Turn s t) (hruns : s.errand? r.activities.length ≠ none)
    (hends : t.errand? r.activities.length = none) :
    ∃ b, t.activities[r.activities.length]? = some b
      ∧ Departs r.activities.length r.orders s t
      ∧ ((s.now = (r.flightFor e pattern payload line).due
          ∧ b.progress = .ended (.call (r.flightFor e pattern payload line).verdict)
          ∧ t.board.trace = (if (r.flightFor e pattern payload line).isAnswered
            then [.finished line.target] else []) ++ s.board.trace)
        ∨ (b.progress = .givenUp ∧ t.board.trace = s.board.trace)) := by
  have hs := (h.reachable.reaches (Turn.enlist r name (e.command pattern payload)).reaches).reaches
    (Forth.reaches hforth)
  rcases timely_of_forth e pattern payload index line h hfree hline hsame name hforth with
    ⟨a, ha, hstands, _⟩
  generalize hp : a.progress = p at hstands
  cases hstands with
  | waits hf hearly =>
      rcases fares_of_turn hs ha hp hf hearly rfl hturn with ⟨b, hb, hfares⟩
      generalize hq : b.progress = q at hfares
      cases hfares with
      | goesOn =>
          rw [errand?_of_running hb hq] at hends
          exact absurd hends (Option.some_ne_none _)
      | settles hnow hdeparts htrace => exact ⟨b, hb, hdeparts, Or.inl ⟨hnow, hq, htrace⟩⟩
      | givenUp hdeparts htrace => exact ⟨b, hb, hdeparts, Or.inr ⟨hq, htrace⟩⟩
  | ended | givenUp | taken =>
      exact absurd (errand?_eq_none s _ a ha (hp ▸ fun _ => Progress.noConfusion)) hruns

/-- A call that is made now, and that its client has, ends at one exact time: when the client
    answers, or when its time is over if that is first. Here `r.activities.length` is the number of
    the activity that makes the call, and `r.orders` that of the flight, if the call becomes one. -/
structure EndsOnTime (r : Rehearsal) (c : Command) (target : Target) (arrival : Trace)
    (answer : Answer) (limit : Nat) : Prop where
  /-- It is waited for, and the caller gets its result at just that time. -/
  performed : (r.step (.perform c)).2 = .call (answer.within target limit)
    ∧ (r.step (.perform c)).1.now = r.now + answer.takes limit
  /-- If it takes no time it ends as it is made. No permit stays out for it, and nothing is under
      way. -/
  atOnce : answer.takes limit = 0 →
    (r.start c).2 = .inl (.call (answer.within target limit))
      ∧ (r.start c).1.board.permits.free = r.board.permits.free
      ∧ (r.start c).1.board.flights = r.board.flights
      ∧ (r.start c).1.board.trace
        = (if answer.after.getD 0 ≤ limit then [.finished target] else [])
          ++ arrival :: r.board.trace
  /-- And otherwise it is under way, with a permit. -/
  underWay : answer.takes limit ≠ 0 →
    (r.start c).2 = .inr (single target r.orders)
      ∧ (r.start c).1.board.permits.free + 1 = r.board.permits.free
      ∧ (r.start c).1.board.trace = arrival :: r.board.trace
  /-- Whatever else happens, it runs no longer than to its time, and has not ended before it. -/
  stands (name : Option String) (s : Rehearsal) (h : Forth (r.enlist name c) s) :
    ∃ a, s.activities[r.activities.length]? = some a
      ∧ (∀ errand, a.progress = .running errand → s.now ≤ r.now + answer.takes limit)
      ∧ ∀ outcome, a.progress = .ended outcome →
        outcome = .call (answer.within target limit) ∧ r.now + answer.takes limit ≤ s.now
  /-- In the turn in which it ends its permit is free again and its flight is gone, and nothing else
      that is under way is touched. The turn comes at its time, unless the caller gives it up. That
      the client finished it is seen if its answer came in time, and otherwise it is not. -/
  ends (name : Option String) (s t : Rehearsal) (h : Forth (r.enlist name c) s) (hturn : Turn s t)
    (hruns : s.errand? r.activities.length ≠ none) (hends : t.errand? r.activities.length = none) :
    ∃ a, t.activities[r.activities.length]? = some a
      ∧ Departs r.activities.length r.orders s t
      ∧ ((s.now = r.now + answer.takes limit
          ∧ a.progress = .ended (.call (answer.within target limit))
          ∧ t.board.trace = (if answer.after.getD 0 ≤ limit then [.finished target] else [])
            ++ s.board.trace)
        ∨ (a.progress = .givenUp ∧ t.board.trace = s.board.trace))
  /-- And then it is gone for good: whatever comes for it finds nothing, and changes nothing. -/
  gone (name : Option String) (s t : Rehearsal) (h : Forth (r.enlist name c) s)
    (hidle : s.errand? r.activities.length = none) (hlater : Reaches s t) :
    (∀ e ∈ t.board.flights, e.1 ≠ r.orders)
      ∧ (∀ now, t.board.land r.orders now = (t.board, none))
      ∧ t.board.abandon r.orders = t.board
  /-- If it runs in the background and time is let pass, it has ended exactly if enough has
      passed. -/
  advanced (name : String) (ms : Nat) :
    ∃ a, ((r.step (.background name c)).1.step
        (.advance ms)).1.activities[r.activities.length]? = some a
      ∧ a.progress = if answer.takes limit ≤ ms then .ended (.call (answer.within target limit))
        else .running (single target r.orders)

theorem ends_on_time (h : Wired registry r) (hfree : r.board.permits.free ≠ 0)
    (hline : r.board.lines[index]? = some line) (hsame : line.target = e.target) :
    EndsOnTime r (e.command pattern payload) e.target (e.arrival pattern payload)
      (line.answer (r.callFor e pattern payload)) (r.limitFor e) := by
  have hverdict : (r.flightFor e pattern payload line).verdict
      = (line.answer (r.callFor e pattern payload)).within e.target (r.limitFor e) :=
    Flight.ofCall_verdict line (r.callFor e pattern payload) r.now r.orders
  have hdue : (r.flightFor e pattern payload line).due
      = r.now + (line.answer (r.callFor e pattern payload)).takes (r.limitFor e) :=
    Flight.ofCall_due line (r.callFor e pattern payload) r.now r.orders
  have hanswered : (r.flightFor e pattern payload line).isAnswered
      = decide ((line.answer (r.callFor e pattern payload)).after.getD 0 ≤ r.limitFor e) :=
    Flight.ofCall_isAnswered line (r.callFor e pattern payload) r.now r.orders
  rcases started_on_time e pattern payload index line h hfree hline hsame with ⟨hatOnce, hunderWay⟩
  refine ⟨?_, hatOnce, hunderWay, fun name s hforth => ?_,
    fun name s t hforth hturn hruns hends => ?_, fun name s t hforth hidle hlater => ?_,
    fun name ms => ?_⟩
  · rw [← hverdict, ← hdue]
    exact performed_on_time e pattern payload index line h hfree hline hsame
  · rcases timely_of_forth e pattern payload index line h hfree hline hsame name hforth with
      ⟨a, ha, hstands, _⟩
    refine ⟨a, ha, ?_⟩
    rw [← hverdict, ← hdue]
    generalize a.progress = p at hstands
    cases hstands with
    | waits _ hearly => exact ⟨fun _ _ => hearly, fun _ hc => Progress.noConfusion hc⟩
    | ended hlate =>
        refine ⟨fun _ hc => Progress.noConfusion hc, fun _ hc => ⟨?_, hlate⟩⟩
        exact (Progress.ended.inj hc).symm
    | givenUp | taken =>
        exact ⟨fun _ hc => Progress.noConfusion hc, fun _ hc => Progress.noConfusion hc⟩
  · rcases departs_on_time e pattern payload index line h hfree hline hsame name hforth hturn hruns
      hends with ⟨a, ha, hdeparts, hhow⟩
    rw [hverdict, hdue, hanswered, hsame] at hhow
    simp only [decide_eq_true_eq] at hhow
    exact ⟨a, ha, hdeparts, hhow⟩
  · rcases timely_of_forth e pattern payload index line h hfree hline hsame name hforth with
      ⟨_, _, _, hgone⟩
    have hlast := (hgone hidle).reaches hlater
    exact ⟨hlast.flight, hlast.land_abandon⟩
  · rcases advanced_on_time e pattern payload index line h hfree hline hsame name ms with
      ⟨a, ha, hadvanced⟩
    refine ⟨a, ha, hadvanced.trans ?_⟩
    simp only [hverdict, hdue, Nat.add_le_add_iff_left]

end OneCall

end Rehearsal

end Gateway
