import Gateway.Proofs.Rehearsal.Punctual

/-!
# What a Round of Calls Comes To

A broadcast and a probe each make a round: they place one call to every registered target, in
registry order. What the calls come to is settled when they are placed, long before it happens. Of
each call that gets a permit the client has been asked by then, so it is known what the client
answers and after how long, and the time limit decides whether that is in time. All else is the
permits: a call is turned away if none is free when its turn comes, and one that settles at once
gives its permit back before the next call is placed.

`Round.slots` says this without a clock and without flights, and this module shows that it is what
the calls of a round are heading for once they have been placed (`placeAll_destined`). They head for
it as long as they are looked at in time, that is before the clock has passed a timer of theirs. A
flight that is looked at then settles to its verdict, whatever time it is (`verdict_of_outcome?`).

## Main definitions

* `Round`: A broadcast or a probe.
* `Slot`, `Round.slots`: What becomes of each call of a round.
* `Flight.verdict`: What a flight settles to when it is looked at in time.
* `Rehearsal.Destined`: Calls that are heading for some outcomes.

## Theorems

* `Round.slots_targets`, `Round.slots_own`, `Round.slots_admitted`: Slots one by one.
* `Flight.verdict_of_outcome?`: What is looked at in time settles to its verdict.
* `Rehearsal.destined_landLegs`: Calls that are looked at in time head for what they did.
* `Rehearsal.placeAll_destined`: What the calls of a round are heading for.
-/

namespace Gateway

/-- A call to every registered target. -/
inductive Round where
  /-- An event. Without a time limit of its own it has that of the gateway. -/
  | broadcast (pattern : String) (payload : Json) (timeout : Option Nat)
  /-- A probe of the backends. -/
  | probe (timeout : Nat)

/-- What the answer of a client comes to within a time limit. -/
def Answer.within (a : Answer) (target : Target) (limit : Nat) : CallResult :=
  if a.after.getD 0 ≤ limit then a.result else .error (.timeout target limit)

/-- The call settles at once, by its answer or because there is no time for one. -/
def Answer.isPrompt (a : Answer) (limit : Nat) : Bool :=
  a.after.getD 0 == 0 || limit == 0

/-- What the client of a line answers to the next call. -/
def Line.answer (line : Line) (call : Call) : Answer :=
  line.backend.answer line.served call

/-- What becomes of the call to one target. -/
structure Slot where
  /-- The target. -/
  target : Target
  /-- How the call ends, unless it is turned away for want of a permit. -/
  result : Option CallResult

/-- What the report says of the target. -/
def Slot.outcome (slot : Slot) : Outcome :=
  ⟨slot.target, slot.result.getD (.error .overloaded)⟩

namespace Round

/-- The command that makes a round. -/
def command : Round → Command
  | broadcast pattern payload timeout => .broadcast pattern payload timeout
  | probe timeout => .probe timeout

/-- How the clients are called. -/
def kind : Round → CallKind
  | broadcast _ _ _ => .event
  | probe _ => .request

/-- The pattern of the calls. -/
def pattern : Round → String
  | broadcast pattern _ _ => pattern
  | probe _ => HealthReport.pattern

/-- The payload of the calls. -/
def payload : Round → Json
  | broadcast _ payload _ => payload
  | probe _ => HealthReport.payload

/-- The time limit of the calls, where the gateway has one for those that are given none. -/
def timeout (standard : Nat) : Round → Nat
  | broadcast _ _ timeout => timeout.getD standard
  | probe timeout => timeout

/-- What the calls are made for. -/
def purpose : Round → Purpose
  | broadcast _ _ _ => .broadcast
  | probe _ => .probe

/-- The call of a given number to a target. -/
def call (round : Round) (number : Nat) (target : Target) (limit : Nat) : Call :=
  ⟨⟨number, target, round.kind, limit⟩, round.pattern, round.payload⟩

/-- What is seen at the client of a target if the call to it is not turned away. -/
def arrival? (round : Round) (slot : Slot) : Option Trace :=
  slot.result.map fun _ => .reached round.kind slot.target round.pattern round.payload

/-- What becomes of the calls of a round on some lines, in order, when so many permits are free and
    the first call has a given number. -/
def slots (round : Round) (limit : Nat) : Nat → Nat → List Line → List Slot
  | _, _, [] => []
  | 0, number, line :: rest => ⟨line.target, none⟩ :: slots round limit 0 (number + 1) rest
  | free + 1, number, line :: rest =>
    let answer := line.answer (round.call number line.target limit)
    ⟨line.target, some (answer.within line.target limit)⟩
      :: slots round limit (if answer.isPrompt limit then free + 1 else free) (number + 1) rest

variable (round : Round) (limit : Nat)

/-- There is one slot for each line, in order. -/
theorem slots_targets (free number : Nat) (lines : List Line) :
    (round.slots limit free number lines).map Slot.target = lines.map Line.target := by
  induction lines generalizing free number with
  | nil =>
      cases free <;> rfl
  | cons line rest ih =>
      cases free with
      | zero => exact congrArg _ (ih 0 (number + 1))
      | succ free => exact congrArg _ (ih _ (number + 1))

/-- A call is turned away, or it comes to what the client of its own line answers. -/
theorem slots_own (free number : Nat) (lines : List Line) (i : Nat) (slot : Slot) (line : Line)
    (hslot : (round.slots limit free number lines)[i]? = some slot)
    (hline : lines[i]? = some line) (hresult : slot.result ≠ none) :
    slot = ⟨line.target,
      some ((line.answer (round.call (number + i) line.target limit)).within line.target
        limit)⟩ := by
  -- The lines after the first are a round of their own, with what permits are left.
  induction lines generalizing free number i with
  | nil => contradiction
  | cons first rest ih =>
      cases i with
      | zero =>
          rw [List.getElem?_cons_zero] at hline
          rw [← Option.some.inj hline]
          cases free with
          | zero =>
              rw [slots, List.getElem?_cons_zero] at hslot
              rw [← Option.some.inj hslot] at hresult
              exact absurd rfl hresult
          | succ free =>
              rw [slots, List.getElem?_cons_zero] at hslot
              exact (Option.some.inj hslot).symm
      | succ i =>
          have hnumber : number + (i + 1) = number + 1 + i := by omega
          rw [List.getElem?_cons_succ] at hline
          rw [hnumber]
          cases free with
          | zero =>
              rw [slots, List.getElem?_cons_succ] at hslot
              exact ih 0 (number + 1) i hslot hline
          | succ free =>
              rw [slots, List.getElem?_cons_succ] at hslot
              exact ih _ (number + 1) i hslot hline

/-- Nobody is turned away if there is a permit for everybody. -/
theorem slots_admitted (free number : Nat) (lines : List Line) (h : lines.length ≤ free) :
    ∀ slot ∈ round.slots limit free number lines, slot.result ≠ none := by
  induction lines generalizing free number with
  | nil =>
      intro slot hslot
      cases free <;> exact absurd hslot List.not_mem_nil
  | cons line rest ih =>
      rw [List.length_cons] at h
      cases free with
      | zero => exact absurd h (Nat.not_succ_le_zero _)
      | succ free =>
          have hrest : rest.length
              ≤ if (line.answer (round.call number line.target limit)).isPrompt limit then free + 1
                else free := by
            split <;> omega
          intro slot hslot
          rw [slots] at hslot
          rcases List.mem_cons.mp hslot with hfirst | hmem
          · rw [hfirst]
            exact Option.some_ne_none _
          · exact ih _ (number + 1) hrest slot hmem

end Round

/-! ## Verdicts -/

namespace Flight

/-- What a flight settles to when it is looked at in time. -/
def verdict (f : Flight) : CallResult :=
  match f.limit with
  | some t => if f.reply.due ≤ t.due then f.answer else .error f.timeoutError
  | none => f.answer

/-- Whether the answer of a flight comes within its time limit. -/
def isAnswered (f : Flight) : Bool :=
  f.limit.all fun t => f.reply.due ≤ t.due

/-- When a flight is looked at before the clock has passed any of its timers, what it settles to
    does not depend on the time. -/
theorem verdict_of_outcome? (f : Flight) (now : Nat) (result : CallResult) (answered : Bool)
    (hearly : ∀ t ∈ f.timers, now ≤ t.due) (h : f.outcome? now = some (result, answered)) :
    result = f.verdict ∧ answered = f.isAnswered := by
  have hreply : now ≤ f.reply.due := hearly f.reply List.mem_cons_self
  unfold outcome? at h
  unfold verdict isAnswered
  cases hlimit : f.limit with
  | none =>
      rw [hlimit] at h
      simp only at h
      split at h
      · rw [Option.some.injEq, Prod.mk.injEq] at h
        exact ⟨h.1.symm, h.2.symm⟩
      · contradiction
  | some t =>
      have htime : now ≤ t.due := hearly t (by simp [timers, hlimit])
      rw [hlimit] at h
      simp only [Option.all_some] at h ⊢
      split at h
      · -- The answer is there now, and the limit has not passed.
        have hle : f.reply.due ≤ t.due := by omega
        rw [Option.some.injEq, Prod.mk.injEq] at h
        rw [if_pos hle, decide_eq_true hle]
        exact ⟨h.1.symm, h.2.symm⟩
      · split at h
        · have hnle : ¬ f.reply.due ≤ t.due := by omega
          rw [Option.some.injEq, Prod.mk.injEq] at h
          rw [if_neg hnle, decide_eq_false hnle]
          exact ⟨h.1.symm, h.2.symm⟩
        · contradiction

theorem ofCall_timers (line : Line) (call : Call) (now order : Nat) :
    (ofCall .full line call now order).timers
      = [⟨now + (line.answer call).after.getD 0, order⟩,
        ⟨now + call.context.timeout, order + 1⟩] := rfl

theorem ofCall_verdict (line : Line) (call : Call) (now order : Nat) :
    (ofCall .full line call now order).verdict
      = (line.answer call).within call.context.target call.context.timeout := by
  simp only [verdict, ofCall, Layers.full, if_true, timeoutError, Nat.add_le_add_iff_left]
  rfl

theorem ofCall_isAnswered (line : Line) (call : Call) (now order : Nat) :
    (ofCall .full line call now order).isAnswered
      = decide ((line.answer call).after.getD 0 ≤ call.context.timeout) := by
  simp only [isAnswered, ofCall, Layers.full, if_true, Option.all_some,
    Nat.add_le_add_iff_left]
  rfl

theorem ofCall_pending_iff (line : Line) (call : Call) (now order : Nat) :
    (ofCall .full line call now order).outcome? now = none
      ↔ (line.answer call).isPrompt call.context.timeout = false := by
  rw [outcome?_eq_none_iff, ofCall_timers]
  simp only [List.mem_cons, List.not_mem_nil, or_false, forall_eq_or_imp, forall_eq,
    Answer.isPrompt, Bool.or_eq_false_iff, beq_eq_false_iff_ne, ne_eq]
  omega

end Flight

namespace Switchboard

/-! ## Placing One Call -/

/-- Where no two lines have a target in common, there is one place for each target. -/
theorem index_of_target (b : Switchboard) (hdistinct : b.targets.Nodup) (i j : Nat)
    (line other : Line) (hline : b.lines[i]? = some line) (hother : b.lines[j]? = some other)
    (hsame : other.target = line.target) : j = i := by
  have htargets : b.targets[j]? = b.targets[i]? := by
    rw [targets, List.getElem?_map, List.getElem?_map, hline, hother]
    exact congrArg some hsame
  have hlt : j < b.targets.length := by
    rw [targets, List.length_map]
    exact (List.getElem?_eq_some_iff.mp hother).1
  exact (List.getElem?_inj hlt hdistinct).mp htargets

section OneLine

variable (b : Switchboard) (index : Nat) (line : Line) (hline : b.lines[index]? = some line)
  (hdistinct : b.targets.Nodup) (kind : CallKind) (pattern : String) (payload : Json)
  (limit now order : Nat)
include hline hdistinct

/-- Where no two lines have a target in common, a call to the target of a line is a call on that
    line. -/
theorem place_of_line :
    b.place line.target kind pattern payload limit now order
      = placeOn { b with nextCall := b.nextCall + 1 } .full index
        ⟨⟨b.nextCall, line.target, kind, limit⟩, pattern, payload⟩ now order := by
  rcases place_cases b line.target kind pattern payload limit now order with
    ⟨hnone, _⟩ | ⟨found, other, hother, hsame, hplace⟩
  · have hmem : line.target ∈ b.targets := by
      rw [targets]
      exact List.mem_map_of_mem (List.mem_of_getElem? hline)
    exact absurd hmem hnone
  · -- The line that was found is the one that was meant.
    have hindex := index_of_target b hdistinct index found line other hline hother hsame
    rw [hplace, hindex]

/-- A call to the target of a line finds no permit and is turned away, with nothing touched but what
    is counted. -/
theorem place_of_none_free (hfree : b.permits.free = 0) :
    ∃ metrics, b.place line.target kind pattern payload limit now order
      = ({ b with nextCall := b.nextCall + 1, metrics := metrics },
        .settled (.error .overloaded)) := by
  rw [place_of_line b index line hline hdistinct kind pattern payload limit now order]
  rcases placeOn_cases { b with nextCall := b.nextCall + 1 } .full index line
    ⟨⟨b.nextCall, line.target, kind, limit⟩, pattern, payload⟩ now order rfl hline with
    ⟨_, hplace⟩ | ⟨hlt, _⟩
  · exact ⟨_, hplace⟩
  · simp only [Permits.free] at hfree hlt
    omega

end OneLine

/-- The client of a line has a call: it was asked, the next call has the next number, and the call
    has settled to its verdict or is under way. That it was finished is told if the client answered
    in time, and not if the time limit came first. -/
structure Dealt (b : Switchboard) (index : Nat) (line : Line) (call : Call) (now order : Nat)
    (did : Switchboard × Placed) : Prop where
  lines : did.1.lines = b.lines.set index { line with served := line.served + 1 }
  asked : did.1.asked = call.arrival line.target :: b.asked
  nextCall : did.1.nextCall = b.nextCall + 1
  free : did.1.permits.free
    = if (line.answer call).isPrompt call.context.timeout then b.permits.free
      else b.permits.free - 1
  placed : (did.2 = .settled ((line.answer call).within call.context.target call.context.timeout)
      ∧ (line.answer call).isPrompt call.context.timeout = true ∧ did.1.flights = b.flights
      ∧ did.1.trace = (if (line.answer call).after.getD 0 ≤ call.context.timeout
          then [.finished line.target] else []) ++ call.arrival line.target :: b.trace)
    ∨ (did.2 = .flying order
      ∧ (line.answer call).isPrompt call.context.timeout = false
      ∧ did.1.flights = b.flights ++ [(order, Flight.ofCall .full line call now order)]
      ∧ did.1.trace = call.arrival line.target :: b.trace)

/-- A call for which a permit is free is dealt with by the client of its target. -/
theorem place_of_free (b : Switchboard) (index : Nat) (line : Line)
    (hline : b.lines[index]? = some line) (hdistinct : b.targets.Nodup) (kind : CallKind)
    (pattern : String) (payload : Json) (limit now order : Nat) (hfree : b.permits.free ≠ 0) :
    Dealt b index line ⟨⟨b.nextCall, line.target, kind, limit⟩, pattern, payload⟩ now order
      (b.place line.target kind pattern payload limit now order) := by
  rw [place_of_line b index line hline hdistinct kind pattern payload limit now order]
  generalize (⟨⟨b.nextCall, line.target, kind, limit⟩, pattern, payload⟩ : Call) = call
  rcases placeOn_cases { b with nextCall := b.nextCall + 1 } .full index line call now order
    rfl hline with ⟨hfull, _⟩ | ⟨hlt, hplace⟩
  · simp only [Permits.free] at hfree hfull
    omega
  · have hpending := Flight.ofCall_pending_iff line call now order
    have hasked := hand_asked { { b with nextCall := b.nextCall + 1 } with
      permits := ⟨b.permits.limit, b.permits.taken + 1, hlt⟩ } .full index line call now order
    rw [hplace]
    rcases hand_cases { { b with nextCall := b.nextCall + 1 } with
        permits := ⟨b.permits.limit, b.permits.taken + 1, hlt⟩ } .full index line call now
        order with ⟨result, answered, hout, hhand⟩ | ⟨hout, hhand⟩
    · -- It has settled, and has given its permit back.
      have hprompt : (line.answer call).isPrompt call.context.timeout = true := by
        rw [hout] at hpending
        simpa using hpending
      rcases (Flight.ofCall .full line call now order).verdict_of_outcome? now result answered
        (by rw [Flight.ofCall_timers]; simp) hout with ⟨hverdict, hanswered⟩
      rw [Flight.ofCall_verdict] at hverdict
      rw [Flight.ofCall_isAnswered] at hanswered
      rw [hhand] at hasked ⊢
      refine ⟨?_, hasked, ?_, ?_, Or.inl ⟨congrArg Placed.settled hverdict, hprompt, ?_, ?_⟩⟩
      · rw [finish_lines]
        rfl
      · rw [finish_nextCall]
        rfl
      · rw [finish_permits, if_pos hprompt]
        simp only [Flight.ofCall, Layers.full, if_true, handed, note, Permits.release, Permits.free]
        omega
      · rw [finish_flights]
        rfl
      · rw [finish_trace, hanswered]
        simp only [decide_eq_true_eq]
        rfl
    · have hprompt := hpending.mp hout
      rw [hhand] at hasked ⊢
      refine ⟨rfl, hasked, rfl, ?_, Or.inr ⟨rfl, hprompt, rfl, rfl⟩⟩
      rw [if_neg (by rw [hprompt]; exact Bool.false_ne_true)]
      simp only [handed, note, Permits.free]
      omega

end Switchboard

namespace Rehearsal

/-! ## Calls That Head for Their Outcomes -/

/-- What a call comes to when it is looked at in time. -/
def Leg.forecast (flights : Nat → Option Flight) (leg : Leg) : Option Outcome :=
  match leg.state with
  | .settled result => some ⟨leg.target, result⟩
  | .flying n => (flights n).map fun f => ⟨leg.target, f.verdict⟩

/-- Some calls are heading for some outcomes, and the clock has passed none of their timers. -/
structure Destined (r : Rehearsal) (legs : List Leg) (outcomes : List Outcome) : Prop where
  forecast : legs.map (Leg.forecast r.board.flight?) = outcomes.map some
  early : ∀ t ∈ legs.flatMap (Leg.timers r.board.flight?), r.now ≤ t.due

section Calls

variable {r s : Rehearsal} {legs : List Leg} {outcomes : List Outcome}

theorem forecast_congr {flights others : Nat → Option Flight} (legs : List Leg)
    (h : ∀ m ∈ numbersOf legs, others m = flights m) :
    legs.map (Leg.forecast others) = legs.map (Leg.forecast flights) := by
  refine List.map_congr_left fun leg hleg => ?_
  rcases leg with ⟨target, result | n⟩
  · rfl
  · have hn : others n = flights n := h n (List.mem_filterMap.mpr ⟨_, hleg, rfl⟩)
    simp only [Leg.forecast, hn]

theorem Destined.congr (h : Destined r legs outcomes) (hnow : s.now = r.now)
    (hflights : ∀ m ∈ numbersOf legs, s.board.flight? m = r.board.flight? m) :
    Destined s legs outcomes := by
  refine ⟨(forecast_congr legs hflights).trans h.forecast, ?_⟩
  rw [timers_congr legs hflights, hnow]
  exact h.early

theorem Destined.append {others : List Leg} {last : List Outcome} (h : Destined r legs outcomes)
    (h' : Destined r others last) : Destined r (legs ++ others) (outcomes ++ last) := by
  refine ⟨by rw [List.map_append, List.map_append, h.forecast, h'.forecast], fun t ht => ?_⟩
  rw [List.flatMap_append] at ht
  rcases List.mem_append.mp ht with ht | ht
  · exact h.early t ht
  · exact h'.early t ht

theorem destined_settled (r : Rehearsal) (target : Target) (result : CallResult) :
    Destined r [⟨target, .settled result⟩] [⟨target, result⟩] :=
  ⟨rfl, fun _ ht => absurd ht List.not_mem_nil⟩

/-- A call that was just placed is in time. -/
theorem destined_ofCall (r : Rehearsal) (line : Line) (call : Call) (n : Nat)
    (h : r.board.flight? n = some (Flight.ofCall .full line call r.now n)) :
    Destined r [⟨call.context.target, .flying n⟩]
      [⟨call.context.target,
        (line.answer call).within call.context.target call.context.timeout⟩] := by
  constructor
  · simp only [List.map_cons, List.map_nil, Leg.forecast, h, Option.map_some,
      Flight.ofCall_verdict]
  · intro t ht
    simp only [List.flatMap_cons, List.flatMap_nil, List.append_nil, Leg.timers, h,
      Option.map_some, Option.getD_some, Flight.ofCall_timers, List.mem_cons, List.not_mem_nil,
      or_false] at ht
    rcases ht with rfl | rfl <;> exact Nat.le_add_right _ _

/-- A call that was looked at in time is heading for what it was before. -/
theorem landed_forecast (flights : Nat → Option Flight) (now : Nat) (leg : Leg)
    (hearly : ∀ t ∈ Leg.timers flights leg, now ≤ t.due) :
    Leg.forecast flights (Leg.landed flights now leg) = Leg.forecast flights leg := by
  rcases leg with ⟨target, result | n⟩
  · rfl
  · cases hf : flights n with
    | none => simp only [Leg.landed, hf, Option.bind_none]
    | some f =>
        simp only [Leg.timers, hf, Option.map_some, Option.getD_some] at hearly
        cases hout : f.outcome? now with
        | none => simp only [Leg.landed, hf, Option.bind_some, hout]
        | some out =>
            have hverdict := (f.verdict_of_outcome? now out.1 out.2 hearly hout).1
            simp only [Leg.landed, Leg.forecast, hf, Option.bind_some, hout, Option.map_some,
              hverdict]

theorem destined_landLegs (hdistinct : (numbersOf legs).Nodup) (h : Destined r legs outcomes) :
    Destined (r.landLegs legs).1 (r.landLegs legs).2 outcomes := by
  rcases landLegs_map r legs hdistinct with ⟨hmap, hkept⟩
  have hnow := (landLegs_steady r legs).now
  refine ⟨?_, fun t ht => ?_⟩
  · rw [forecast_congr _ hkept, hmap, List.map_map, ← h.forecast]
    refine List.map_congr_left fun leg hleg => landed_forecast _ _ leg fun t ht => ?_
    exact h.early t (List.mem_flatMap.mpr ⟨leg, hleg, ht⟩)
  · rw [hnow]
    exact Nat.le_of_lt ((landLegs_timers r legs hdistinct).2 t ht)

/-- Calls that have all settled have come to what they were heading for. -/
theorem outcomes?_of_destined (os : List Outcome) (h : Destined r legs outcomes)
    (hall : outcomes? legs = some os) : os = outcomes := by
  -- A call that has settled is forecast to what it has settled to.
  have hforecast : ∀ (legs : List Leg) (os : List Outcome), outcomes? legs = some os →
      legs.map (Leg.forecast r.board.flight?) = os.map some := by
    intro legs
    induction legs with
    | nil =>
        intro os hos
        rw [← Option.some.inj hos]
        rfl
    | cons leg legs ih =>
        intro os hos
        rw [outcomes?_cons] at hos
        rcases leg with ⟨target, result | n⟩
        · rcases Option.map_eq_some_iff.mp hos with ⟨rest, hrest, rfl⟩
          rw [List.map_cons, List.map_cons, ih rest hrest]
          rfl
        · contradiction
  have hsame := (hforecast legs os hall).symm.trans h.forecast
  exact (List.map_inj_right fun _ _ => Option.some.inj).mp hsame

/-! ## Placing a Round -/

/-- The first call of a round has been placed. It is heading for what the first slot says, and what
    is left to place is a round on the other lines. -/
structure Begun (round : Round) (limit : Nat) (r : Rehearsal) (passed rest : List Line)
    (line : Line) (slot : Slot) (did : Rehearsal × Leg) : Prop where
  lines : ∃ served, did.1.board.lines = passed ++ { line with served := served } :: rest
  slots : round.slots limit r.board.permits.free r.board.nextCall (line :: rest)
    = slot :: round.slots limit did.1.board.permits.free did.1.board.nextCall rest
  asked : did.1.board.asked = (round.arrival? slot).toList ++ r.board.asked
  destined : Destined did.1 [did.2] [slot.outcome]

theorem place_begun (round : Round) (limit : Nat) (r : Rehearsal) (passed rest : List Line)
    (line : Line) (hlines : r.board.lines = passed ++ line :: rest)
    (hdistinct : r.board.targets.Nodup) (hbelow : ∀ e ∈ r.board.flights, e.1 < r.orders) :
    ∃ slot, Begun round limit r passed rest line slot
      (r.place round.kind line.target round.pattern round.payload limit) := by
  have hplace : r.place round.kind line.target round.pattern round.payload limit
      = ({ r with
          board := (r.board.place line.target round.kind round.pattern round.payload limit r.now
            r.orders).1
          orders := r.orders + 2 },
        ⟨line.target, (r.board.place line.target round.kind round.pattern round.payload limit r.now
          r.orders).2⟩) := rfl
  have hline : r.board.lines[passed.length]? = some line := by
    rw [hlines, List.getElem?_append_right (Nat.le_refl _), Nat.sub_self, List.getElem?_cons_zero]
  rw [hplace]
  cases hfree : r.board.permits.free with
  | zero =>
      rcases Switchboard.place_of_none_free r.board passed.length line hline hdistinct round.kind
        round.pattern round.payload limit r.now r.orders hfree with ⟨metrics, hdid⟩
      rw [hdid]
      refine ⟨⟨line.target, none⟩, ⟨line.served, hlines⟩, ?_, rfl, destined_settled _ _ _⟩
      rw [hfree]
      rfl
  | succ free =>
      have hdealt := Switchboard.place_of_free r.board passed.length line hline hdistinct
        round.kind round.pattern round.payload limit r.now r.orders (by omega)
      generalize r.board.place line.target round.kind round.pattern round.payload limit r.now
        r.orders = did at hdealt
      have hset : did.1.lines = passed ++ { line with served := line.served + 1 } :: rest := by
        rw [hdealt.lines, hlines, List.set_append_right _ _ (Nat.le_refl _), Nat.sub_self,
          List.set_cons_zero]
      refine ⟨⟨line.target, some ((line.answer (round.call r.board.nextCall line.target
        limit)).within line.target limit)⟩, ⟨_, hset⟩, ?_, hdealt.asked, ?_⟩
      · rw [hdealt.free, hdealt.nextCall, hfree]
        rfl
      · rcases hdealt.placed with ⟨hsettled, _⟩ | ⟨hflying, _, hflights, _⟩
        · rw [hsettled]
          exact destined_settled _ _ _
        · rw [hflying]
          refine destined_ofCall _ line (round.call r.board.nextCall line.target limit) r.orders ?_
          exact Switchboard.flight?_append_self r.board did.1 _ r.orders
            (fun e he => Nat.ne_of_lt (hbelow e he)) hflights

/-- The calls of a round head for what its slots say, and the clients were asked of those that were
    not turned away, each once and in order. -/
theorem placeAll_destined (round : Round) (limit : Nat) (r : Rehearsal) (passed rest : List Line)
    (hlines : r.board.lines = passed ++ rest) (hdistinct : r.board.targets.Nodup)
    (hbelow : ∀ e ∈ r.board.flights, e.1 < r.orders) :
    Destined
        (placeAll round.kind round.pattern round.payload limit r (rest.map Line.target)).1
        (placeAll round.kind round.pattern round.payload limit r (rest.map Line.target)).2
        ((round.slots limit r.board.permits.free r.board.nextCall rest).map Slot.outcome)
      ∧ (placeAll round.kind round.pattern round.payload limit r
          (rest.map Line.target)).1.board.asked
        = ((round.slots limit r.board.permits.free r.board.nextCall rest).filterMap
            round.arrival?).reverse ++ r.board.asked := by
  induction rest generalizing r passed with
  | nil =>
      rw [Round.slots]
      exact ⟨⟨rfl, fun t ht => absurd ht List.not_mem_nil⟩, rfl⟩
  | cons line rest ih =>
      rcases place_begun round limit r passed rest line hlines hdistinct hbelow with
        ⟨slot, hbegun⟩
      have hstarts := place_starts r round.kind line.target round.pattern round.payload limit
      have hdid : placeAll round.kind round.pattern round.payload limit r
            ((line :: rest).map Line.target)
          = ((placeAll round.kind round.pattern round.payload limit
              (r.place round.kind line.target round.pattern round.payload limit).1
              (rest.map Line.target)).1,
            (r.place round.kind line.target round.pattern round.payload limit).2
              :: (placeAll round.kind round.pattern round.payload limit
                (r.place round.kind line.target round.pattern round.payload limit).1
                (rest.map Line.target)).2) := rfl
      have htargets : (r.place round.kind line.target round.pattern round.payload
          limit).1.board.targets = r.board.targets := by
        rcases hbegun.lines with ⟨served, hserved⟩
        unfold Switchboard.targets
        rw [hserved, hlines, List.map_append, List.map_append, List.map_cons, List.map_cons]
      rcases hbegun.lines with ⟨served, hserved⟩
      rw [hdid]
      generalize r.place round.kind line.target round.pattern round.payload limit = did
        at hbegun hstarts htargets hserved
      have hothers := placeAll_starts round.kind round.pattern round.payload limit did.1
        (rest.map Line.target)
      have hfixed := placeAll_fixed round.kind round.pattern round.payload limit did.1
        (rest.map Line.target)
      rcases ih did.1 (passed ++ [{ line with served := served }])
        (by rw [hserved, List.append_assoc]; rfl) (htargets ▸ hdistinct)
        (hstarts.spares.below hbelow) with ⟨hdestined, hasked⟩
      rw [hbegun.slots]
      constructor
      · -- The calls after the first leave its flight alone.
        have hfirst := hbegun.destined.congr hfixed.now fun m hm =>
          hothers.spares.kept m (hstarts.new m hm).2
        exact hfirst.append hdestined
      · rw [hasked, hbegun.asked, List.filterMap_cons]
        cases round.arrival? slot with
        | none => rfl
        | some arrival =>
            simp only [List.reverse_cons, List.append_assoc]
            rfl

end Calls

end Rehearsal

end Gateway
