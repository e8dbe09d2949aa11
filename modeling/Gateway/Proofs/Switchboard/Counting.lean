import Mathlib.Logic.Relation
import Gateway.Proofs.Metrics.Tallies
import Gateway.Proofs.Switchboard.Flights

/-!
# Calls Are Counted as They End

The counters of calls are written inside the gateway, and what they are to be compared with is known
outside of it: which calls were made, and how each of them came back to whoever made it. So next to
the switchboard a ledger is kept, by the callers and from nothing but what they see. A call that
settles at once, or whose flight settles, is entered with the very result that was returned. A call
that is given up is struck out and never entered.

Counters and ledger agree at every moment (`calls_counted`), for each registered target. This is a
matter of the order of the layers: the count is the outermost, so a call that is turned away for
want of a permit has been counted before the permits are asked for, and so has one that its time
limit ends. A call to a target without a line comes back too, and is entered in the ledger, but no
layer saw it. A call that was given up left its layers on the way down.

## Main definitions

* `Ending`, `Ledger`: How calls came back to their callers.
* `Switchboard.Event`, `Switchboard.Recorded`: What happens to calls, and the ledger that is kept.
* `Switchboard.Once`: One series is counted once more, and no other.
* `Switchboard.Balanced`: Counters and ledger agree, and so do flights and callers.

## Theorems

* `Switchboard.place_calls`, `Switchboard.land_calls`, `Switchboard.abandon_metrics`: What each
  event adds to the counters.
* `Switchboard.balanced_event`, `Switchboard.balanced_of_recorded`: The balance is kept.
* `Switchboard.calls_counted`: The counters of calls, in every reachable state.
-/

namespace Gateway

/-- How a call came back to its caller. -/
structure Ending where
  target : Target
  kind : CallKind
  -- What the caller got, which need not be what the client answered.
  result : CallResult

/-- What a call that came back belongs under. -/
def Ending.series (e : Ending) : CallSeries :=
  ⟨e.target, e.kind, CallResult.label e.result⟩

/-- What callers know of their calls. -/
structure Ledger where
  waiting : List (Nat × Target × CallKind) := []
  -- Latest first.
  ended : List Ending := []

namespace Ledger

/-- A call was made: it came back at once, or is waited for under a number. -/
def placed (l : Ledger) (target : Target) (kind : CallKind) : Placed → Ledger
  | .settled result => { l with ended := ⟨target, kind, result⟩ :: l.ended }
  | .flying n => { l with waiting := l.waiting ++ [(n, target, kind)] }

/-- The call of a number is not waited for any more. -/
def dropped (l : Ledger) (n : Nat) : Ledger :=
  { l with waiting := l.waiting.filter fun e => e.1 != n }

/-- It was seen whether the call of a number has come back. -/
def returned (l : Ledger) (n : Nat) (result : Option CallResult) : Ledger :=
  match result, l.waiting.find? fun e => e.1 == n with
  -- A call that is not waited for any more was given up, and has no result.
  | some result, some (_, target, kind) =>
    { l.dropped n with ended := ⟨target, kind, result⟩ :: l.ended }
  | _, _ => l

/-- How many calls came back that belong under a series. -/
def resolved (l : Ledger) (s : CallSeries) : Nat :=
  l.ended.countP fun e => e.series = s

end Ledger

namespace Switchboard

/-- What happens to calls, and what callers enter in their ledger. -/
inductive Event : Switchboard × Ledger → Switchboard × Ledger → Prop
  -- A call is placed to a target, registered or not.
  | route (b : Switchboard) (l : Ledger) (target : Target) (kind : CallKind) (pattern : String)
      (payload : Json) (timeout now order : Nat) (hfresh : b.flight? order = none) :
      Event (b, l)
        ((b.place target kind pattern payload timeout now order).1,
          l.placed target kind (b.place target kind pattern payload timeout now order).2)
  -- A flight is looked at, and ends if it is due.
  | land (b : Switchboard) (l : Ledger) (n now : Nat) :
      Event (b, l) ((b.land n now).1, l.returned n (b.land n now).2)
  | abandon (b : Switchboard) (l : Ledger) (n : Nat) : Event (b, l) (b.abandon n, l.dropped n)
  | close (b : Switchboard) (l : Ledger) : Event (b, l) (b.close, l)

/-- What a run of events makes of a switchboard and a ledger. -/
def Recorded : Switchboard × Ledger → Switchboard × Ledger → Prop :=
  Relation.ReflTransGen Event

/-- One series is counted once more, and no other. -/
def Once (s : CallSeries) (b after : Switchboard) : Prop :=
  ∀ r, after.metrics.calls.count r = b.metrics.calls.count r + if s = r then 1 else 0

theorem once_of_bump (s : CallSeries) (b after : Switchboard)
    (h : after.metrics.calls = Tally.bump s b.metrics.calls) : Once s b after := fun r => by
  rw [h, Tally.count_bump]

/-! ## What Each Event Adds -/

section Adds

variable (b : Switchboard)

theorem giveBack_metrics (held : Bool) : (b.giveBack held).metrics = b.metrics := by
  unfold giveBack
  split <;> rfl

theorem finish_calls (f : Flight) (result : CallResult) (answered : Bool)
    (hcounted : f.counted = true) : (b.finish f result answered).metrics.calls
      = Tally.bump ⟨f.context.target, f.context.kind, CallResult.label result⟩
        b.metrics.calls := by
  rw [finish, count, if_pos hcounted]
  cases answered <;> simp [Metrics.recordCall, giveBack_metrics, note]

/-- A call whose client has it is counted if it settles at once, and otherwise goes on to be
    counted. -/
theorem hand_calls (index : Nat) (line : Line) (call : Call) (now order : Nat) :
    (∃ result, (b.hand .full index line call now order).2 = .settled result
        ∧ (b.hand .full index line call now order).1.flights = b.flights
        ∧ (b.hand .full index line call now order).1.metrics.calls
          = Tally.bump ⟨call.context.target, call.context.kind, CallResult.label result⟩
            b.metrics.calls)
      ∨ (∃ f, (b.hand .full index line call now order).2 = .flying order
        ∧ (b.hand .full index line call now order).1.flights = b.flights ++ [(order, f)]
        ∧ f.counted = true ∧ f.context = call.context
        ∧ (b.hand .full index line call now order).1.metrics.calls = b.metrics.calls) := by
  rcases hand_cases b .full index line call now order with
    ⟨result, answered, _, hhand⟩ | ⟨_, hhand⟩
  · rw [hhand]
    exact Or.inl ⟨result, rfl, finish_flights _ _ _ _, finish_calls _ _ _ _ rfl⟩
  · rw [hhand]
    exact Or.inr ⟨_, rfl, rfl, rfl, rfl, rfl⟩

/-- A call to a target that has a line adds one to the series of what it comes back with, or is
    under way and adds nothing yet. -/
theorem place_calls (target : Target) (kind : CallKind) (pattern : String) (payload : Json)
    (timeout now order : Nat) (htarget : target ∈ b.targets) :
    (∃ result, (b.place target kind pattern payload timeout now order).2 = .settled result
        ∧ (b.place target kind pattern payload timeout now order).1.flights = b.flights
        ∧ (b.place target kind pattern payload timeout now order).1.metrics.calls
          = Tally.bump ⟨target, kind, CallResult.label result⟩ b.metrics.calls
        ∧ (b.permits.free = 0 → result = .error .overloaded))
      ∨ (∃ f, (b.place target kind pattern payload timeout now order).2 = .flying order
        ∧ (b.place target kind pattern payload timeout now order).1.flights
          = b.flights ++ [(order, f)]
        ∧ f.counted = true ∧ f.context.target = target ∧ f.context.kind = kind
        ∧ (b.place target kind pattern payload timeout now order).1.metrics.calls
          = b.metrics.calls
        ∧ b.permits.free ≠ 0) := by
  rcases place_cases b target kind pattern payload timeout now order with
    ⟨hnone, _⟩ | ⟨index, line, hline, _, hplace⟩
  · exact absurd htarget hnone
  rw [hplace]
  rcases placeOn_cases { b with nextCall := b.nextCall + 1 } .full index line
    ⟨⟨b.nextCall, target, kind, timeout⟩, pattern, payload⟩ now order rfl hline with
    ⟨_, hplaced⟩ | ⟨hfree, hplaced⟩
  · -- Without a permit the call comes back as one too many, and the layer outside counts that.
    rw [hplaced]
    exact Or.inl ⟨_, rfl, count_flights _ _ _ _, rfl, fun _ => rfl⟩
  · have hsome : b.permits.free ≠ 0 := Nat.sub_ne_zero_of_lt hfree
    rw [hplaced]
    rcases hand_calls _ index line ⟨⟨b.nextCall, target, kind, timeout⟩, pattern, payload⟩ now
      order with ⟨result, hsettled, hflights, hcalls⟩ | ⟨f, hflying, hflights, hf, hcontext, hcalls⟩
    · exact Or.inl ⟨result, hsettled, hflights, hcalls, fun hnone => absurd hnone hsome⟩
    · refine Or.inr ⟨f, hflying, hflights, hf, ?_, ?_, hcalls, hsome⟩
      · rw [hcontext]
      · rw [hcontext]

theorem place_of_unregistered (target : Target) (kind : CallKind) (pattern : String)
    (payload : Json) (timeout now order : Nat) (h : target ∉ b.targets) :
    b.place target kind pattern payload timeout now order
      = (b, .settled (.error (.unknownTarget target.name))) := by
  rcases place_cases b target kind pattern payload timeout now order with
    ⟨_, hplace⟩ | ⟨index, line, hline, hsame, _⟩
  · exact hplace
  · exact absurd (List.mem_map.mpr ⟨line, List.mem_of_getElem? hline, hsame⟩) h

theorem land_calls (n now : Nat) (f : Flight) (result : CallResult) (answered : Bool)
    (hf : b.flight? n = some f) (hcounted : f.counted = true)
    (hout : f.outcome? now = some (result, answered)) : (b.land n now).1.metrics.calls
      = Tally.bump ⟨f.context.target, f.context.kind, CallResult.label result⟩
        b.metrics.calls := by
  rw [land_of_due b n now f result answered hf hout, finish_calls _ f result answered hcounted]
  rfl

theorem abandon_metrics (n : Nat) : (b.abandon n).metrics = b.metrics := by
  cases hf : b.flight? n with
  | none => rw [abandon_of_no_flight b n hf]
  | some f =>
      rw [abandon_of_flight b n f hf, giveBack_metrics]
      rfl

end Adds

/-! ## The Balance -/

/-- Counters and ledger agree on what has come back, and the flights are the calls that are waited
    for, each of which is yet to be counted under its target. -/
structure Balanced (b : Switchboard) (l : Ledger) : Prop where
  waiting_eq : l.waiting = b.flights.map fun e => (e.1, e.2.context.target, e.2.context.kind)
  counted : ∀ e ∈ b.flights, e.2.counted = true ∧ e.2.context.target ∈ b.targets
  calls : ∀ s, b.metrics.calls.count s = if s.target ∈ b.targets then l.resolved s else 0

theorem balanced_ofLines (lines : List (Target × Backend)) (limit timeout : Nat) :
    Balanced (ofLines lines limit timeout) {} := by
  refine ⟨rfl, fun e he => absurd he List.not_mem_nil, fun s => ?_⟩
  split <;> rfl

section Balance

variable {b : Switchboard} {l : Ledger} (h : Balanced b l)
include h

/-- What is counted once more on one side has come back once more on the other. -/
theorem Balanced.calls_of_bump (e : Ending) (ended : List Ending) (after : Switchboard)
    (hended : ended = e :: l.ended) (htarget : e.target ∈ b.targets)
    (htargets : after.targets = b.targets)
    (hcalls : after.metrics.calls = Tally.bump e.series b.metrics.calls) (waiting)
    (s : CallSeries) :
    after.metrics.calls.count s
      = if s.target ∈ after.targets then (⟨waiting, ended⟩ : Ledger).resolved s else 0 := by
  rw [hcalls, Tally.count_bump, h.calls s, htargets, hended]
  simp only [Ledger.resolved, List.countP_cons, decide_eq_true_eq]
  by_cases hs : s.target ∈ b.targets
  · rw [if_pos hs, if_pos hs]
  · -- A series of another target is not the one that is counted.
    have hne : e.series ≠ s := fun hc => hs (hc ▸ htarget)
    rw [if_neg hs, if_neg hs, if_neg hne]

/-- The call of a flight is waited for under the number of the flight. -/
theorem Balanced.find_waiting (n : Nat) : l.waiting.find? (fun e => e.1 == n)
    = (b.flight? n).map fun f => (n, f.context.target, f.context.kind) := by
  rw [h.waiting_eq, List.find?_map, flight?]
  have hsame : ((fun e => e.1 == n) ∘ fun e => (e.1, e.2.context.target, e.2.context.kind)
      : Nat × Flight → Bool) = fun e => e.1 == n := rfl
  rw [hsame]
  cases hfound : b.flights.find? fun e => e.1 == n with
  | none => rfl
  | some e =>
      have hkey := List.find?_some hfound
      simp only [Option.map_some, beq_iff_eq.mp hkey]

theorem Balanced.dropped_waiting (n : Nat) : (l.dropped n).waiting
    = (b.dismiss n).flights.map fun e => (e.1, e.2.context.target, e.2.context.kind) := by
  rw [Ledger.dropped, h.waiting_eq, dismiss, List.filter_map]
  rfl

theorem Balanced.counted_of_flight (n : Nat) (f : Flight) (hf : b.flight? n = some f) :
    f.counted = true ∧ f.context.target ∈ b.targets :=
  h.counted (n, f) (mem_of_flight? b n f hf)

theorem balanced_place (target : Target) (kind : CallKind) (pattern : String) (payload : Json)
    (timeout now order : Nat) :
    Balanced (b.place target kind pattern payload timeout now order).1
      (l.placed target kind (b.place target kind pattern payload timeout now order).2) := by
  by_cases htarget : target ∈ b.targets
  · have htargets : (b.place target kind pattern payload timeout now order).1.targets
        = b.targets := by
      rw [targets_eq, place_backends, ← targets_eq]
    rcases place_calls b target kind pattern payload timeout now order htarget with
      ⟨result, hsettled, hflights, hcalls, _⟩ | ⟨f, hflying, hflights, hf, hto, hkind, hcalls, _⟩
    · rw [hsettled]
      refine ⟨?_, ?_, ?_⟩
      · rw [hflights]
        exact h.waiting_eq
      · rw [hflights, htargets]
        exact h.counted
      · exact h.calls_of_bump ⟨target, kind, result⟩ _ _ rfl htarget htargets hcalls _
    · rw [hflying]
      refine ⟨?_, ?_, ?_⟩
      · rw [hflights, List.map_append, ← h.waiting_eq, List.map_singleton, hto, hkind]
        rfl
      · intro e he
        rw [hflights] at he
        rw [htargets]
        rcases List.mem_append.mp he with he | he
        · exact h.counted e he
        · rw [List.mem_singleton.mp he]
          exact ⟨hf, hto ▸ htarget⟩
      · intro s
        rw [hcalls, htargets]
        exact h.calls s
  · -- The call comes back, but its target has no counters.
    rw [place_of_unregistered b target kind pattern payload timeout now order htarget]
    refine ⟨h.waiting_eq, h.counted, fun s => ?_⟩
    rw [h.calls s]
    by_cases hs : s.target ∈ b.targets
    · have hne : (⟨target, kind, .error (.unknownTarget target.name)⟩ : Ending).series ≠ s :=
        fun hc => htarget (by rw [← hc] at hs; exact hs)
      simp only [if_pos hs, Ledger.placed, Ledger.resolved, List.countP_cons, decide_eq_true_eq,
        if_neg hne, Nat.add_zero]
    · rw [if_neg hs, if_neg hs]

theorem balanced_land (n now : Nat) :
    Balanced (b.land n now).1 (l.returned n (b.land n now).2) := by
  cases hf : b.flight? n with
  | none =>
      rw [land_of_no_flight b n now hf]
      exact h
  | some f =>
      rcases h.counted_of_flight n f hf with ⟨hcounted, htarget⟩
      cases hout : f.outcome? now with
      | none =>
          rw [land_of_pending b n now f hf hout]
          exact h
      | some out =>
          rcases out with ⟨result, answered⟩
          have hcalls := land_calls b n now f result answered hf hcounted hout
          have htargets : (b.land n now).1.targets = b.targets := by
            rw [targets, land_lines]
            rfl
          have hreturned : l.returned n (some result) = { l.dropped n with
              ended := ⟨f.context.target, f.context.kind, result⟩ :: l.ended } := by
            have hfind := h.find_waiting n
            rw [hf, Option.map_some] at hfind
            simp only [Ledger.returned, hfind]
          have hflights : (b.land n now).1.flights = (b.dismiss n).flights := by
            rw [land_of_due b n now f result answered hf hout, finish_flights]
          rw [show (b.land n now).2 = some result by
            rw [land_of_due b n now f result answered hf hout], hreturned]
          -- The flight is gone, the call is not waited for any more, and both sides have one more.
          refine ⟨?_, ?_, ?_⟩
          · rw [hflights]
            exact h.dropped_waiting n
          · rw [hflights, htargets]
            exact fun e he => h.counted e (List.mem_filter.mp he).1
          · exact h.calls_of_bump ⟨f.context.target, f.context.kind, result⟩ _ _ rfl htarget
              htargets hcalls _

theorem balanced_abandon (n : Nat) : Balanced (b.abandon n) (l.dropped n) := by
  have hflights : (b.abandon n).flights = (b.dismiss n).flights := by
    cases hf : b.flight? n with
    | none =>
        -- There is nothing to take away.
        rw [abandon_of_no_flight b n hf]
        refine (List.filter_eq_self.mpr fun e he => bne_iff_ne.mpr fun hc => ?_).symm
        exact (flight?_eq_none_iff b n).mp hf (List.mem_map.mpr ⟨e, he, hc⟩)
    | some f => rw [abandon_of_flight b n f hf, giveBack_flights]
  have htargets : (b.abandon n).targets = b.targets := by
    rw [targets, abandon_lines]
    rfl
  refine ⟨?_, ?_, ?_⟩
  · rw [hflights]
    exact h.dropped_waiting n
  · rw [hflights, htargets]
    exact fun e he => h.counted e (List.mem_filter.mp he).1
  · intro s
    rw [abandon_metrics, htargets]
    exact h.calls s

end Balance

theorem balanced_event {b c : Switchboard} {l m : Ledger} (h : Balanced b l)
    (hevent : Event (b, l) (c, m)) : Balanced c m := by
  cases hevent with
  | route _ _ target kind pattern payload timeout now order _ =>
      exact balanced_place h target kind pattern payload timeout now order
  | land _ _ n now => exact balanced_land h n now
  | abandon _ _ n => exact balanced_abandon h n
  | close =>
      rcases close_eq b with ⟨trace, hclose, _⟩
      rw [hclose]
      exact ⟨h.waiting_eq, h.counted, h.calls⟩

theorem balanced_of_recorded {start after : Switchboard × Ledger} (h : Balanced start.1 start.2)
    (hrun : Recorded start after) : Balanced after.1 after.2 := by
  induction hrun with
  | refl => exact h
  | tail _ hevent ih => exact balanced_event ih hevent

/-- The counters of calls, after any run of calls that come back or are given up in any order, to
    all targets. The counter of a series of a registered target is the number of calls to that
    target and of that kind that came back with that outcome, be it a value or the error the caller
    got; and no other target has counters. So it is after every next event too, one by one: a call
    that is turned away for want of a permit comes back as one too many and is counted as that,
    once; one that its time limit ends is counted once as that; a call to a target that is not
    registered, a call that goes on, and one that is given up are not counted, and the last is
    gone. -/
theorem calls_counted (lines : List (Target × Backend)) (limit timeout : Nat) (b : Switchboard)
    (l : Ledger) (h : Recorded (ofLines lines limit timeout, {}) (b, l)) :
    (∀ s, s.target ∈ b.targets → b.metrics.calls.count s = l.resolved s)
      ∧ (∀ s, s.target ∉ b.targets → b.metrics.calls.count s = 0)
      ∧ (∀ target kind pattern payload timeout now order, target ∈ b.targets →
        match b.place target kind pattern payload timeout now order with
        | (after, .settled result) => Once ⟨target, kind, CallResult.label result⟩ b after
          ∧ (b.permits.free = 0 → result = .error .overloaded)
        | (after, .flying _) => after.metrics.calls = b.metrics.calls ∧ b.permits.free ≠ 0)
      ∧ (∀ target kind pattern payload timeout now order, target ∉ b.targets →
        b.place target kind pattern payload timeout now order
          = (b, .settled (.error (.unknownTarget target.name))))
      ∧ (∀ n f now, b.flight? n = some f →
        (∀ result answered, f.outcome? now = some (result, answered) →
          (b.land n now).2 = some result
            ∧ Once ⟨f.context.target, f.context.kind, CallResult.label result⟩ b (b.land n now).1)
        ∧ (∀ t, f.limit = some t → t.due ≤ now → now < f.reply.due →
          (b.land n now).2 = some (.error (.timeout f.context.target f.context.timeout))
            ∧ Once ⟨f.context.target, f.context.kind, "timeout"⟩ b (b.land n now).1)
        ∧ (f.outcome? now = none → b.land n now = (b, none)))
      ∧ (∀ n, (b.abandon n).metrics = b.metrics ∧ (b.abandon n).flight? n = none) := by
  have hbalance : Balanced b l := balanced_of_recorded (balanced_ofLines lines limit timeout) h
  have hland : ∀ n f now result answered, b.flight? n = some f →
      f.outcome? now = some (result, answered) → (b.land n now).2 = some result
        ∧ Once ⟨f.context.target, f.context.kind, CallResult.label result⟩ b (b.land n now).1 := by
    intro n f now result answered hf hout
    refine ⟨by rw [land_of_due b n now f result answered hf hout], once_of_bump _ _ _ ?_⟩
    exact land_calls b n now f result answered hf (hbalance.counted_of_flight n f hf).1 hout
  refine ⟨fun s hs => ?_, fun s hs => ?_, ?_,
    fun target kind pattern payload timeout now order hno =>
      place_of_unregistered b target kind pattern payload timeout now order hno,
    fun n f now hf => ⟨fun result answered hout => hland n f now result answered hf hout, ?_, ?_⟩,
    fun n => ⟨abandon_metrics b n, ?_⟩⟩
  · rw [hbalance.calls s, if_pos hs]
  · rw [hbalance.calls s, if_neg hs]
  · intro target kind pattern payload timeout now order htarget
    rcases place_calls b target kind pattern payload timeout now order htarget with
      ⟨result, hsettled, _, hcalls, hfull⟩ | ⟨f, hflying, _, _, _, _, hcalls, hfree⟩
    · cases hplace : b.place target kind pattern payload timeout now order with
      | mk after placed =>
          rw [hplace] at hsettled hcalls
          subst hsettled
          exact ⟨once_of_bump _ _ _ hcalls, hfull⟩
    · cases hplace : b.place target kind pattern payload timeout now order with
      | mk after placed =>
          rw [hplace] at hflying hcalls
          subst hflying
          exact ⟨hcalls, hfree⟩
  · intro t ht hdue hwaits
    -- The answer is not there yet, so the time limit decides.
    have hout : f.outcome? now = some (.error f.timeoutError, false) := by
      rw [Flight.outcome?, if_neg (Nat.not_le.mpr hwaits), ht]
      exact if_pos hdue
    exact hland n f now _ false hf hout
  · intro hout
    exact land_of_pending b n now f hf hout
  · cases hf : b.flight? n with
    | none => rwa [abandon_of_no_flight b n hf]
    | some f =>
        rw [abandon_of_flight b n f hf, flight?_eq_none_iff, giveBack_flights]
        simp [dismiss]

/-- Two targets that share one permit, where a call to the first takes longer than it may. -/
def twoLines : Switchboard :=
  ofLines [(.notification, .ofScript [⟨some 200, some (.ok .null)⟩]), (.inventory, .echo)] 1 100

/-- A call is turned away and one finds no target while the first is under way, which its time limit
    then ends; one more is given up. -/
theorem calls_counted_two_lines : ∃ b l, Recorded (twoLines, {}) (b, l)
    ∧ b.flights.length = 0 ∧ l.ended.length = 3
    ∧ b.metrics.calls.count ⟨.notification, .request, "timeout"⟩ = 1
    ∧ b.metrics.calls.count ⟨.inventory, .event, "overloaded"⟩ = 1
    ∧ b.metrics.calls.count ⟨.aiMl, .request, "unknown_target"⟩ = 0 := by
  have hrun : Recorded (twoLines, {}) _ :=
    (((((Relation.ReflTransGen.single
      (Event.route twoLines {} .notification .request "createNotification" .null 100 0 0 rfl)).tail
      (Event.route _ _ .inventory .event "updateInventory" .null 100 10 2 rfl)).tail
      (Event.route _ _ .aiMl .request "predict" .null 100 20 4 rfl)).tail
      (Event.land _ _ 0 100)).tail
      (Event.route _ _ .notification .request "createNotification" .null 100 110 6 rfl)).tail
      (Event.abandon _ _ 6)
  rcases calls_counted _ 1 100 _ _ hrun with ⟨hregistered, hothers, _⟩
  refine ⟨_, _, hrun, rfl, rfl, ?_, ?_, ?_⟩
  · exact (hregistered ⟨.notification, .request, "timeout"⟩ List.mem_cons_self).trans rfl
  · exact (hregistered ⟨.inventory, .event, "overloaded"⟩
      (List.mem_cons_of_mem _ List.mem_cons_self)).trans rfl
  · exact hothers ⟨.aiMl, .request, "unknown_target"⟩ (by decide)

end Switchboard

end Gateway
