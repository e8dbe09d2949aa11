import Gateway.Proofs.Broadcast.Strict
import Gateway.Proofs.Rehearsal.Answers

/-!
# What a Forwarding Route Asks

A request to a forwarding route is put to the backends as calls that all ask the same: one call to
the target of the route, or one to each registered target. A call reaches the client of its target
unless there is none or no permit is free. Each call comes to an outcome, at once or when its flight
lands, and the outcomes decide the answer to the request. For a single call that is the value with
status 201, or the text of the error with a status that tells whether the backend was late, refused,
unknown or at fault. For a broadcast it is all values, or else an account of who was reached and who
was missed, with status 502.

The answer is said in terms of the outcomes alone, and these in terms of the calls as they were
placed and of the flights that they were given. So nothing that happens to the request in between
has a part in it, except that the layers around the interface may lose patience.

## Main definitions

* `Http.Route.Forward.targets`, `Http.Route.Forward.kind`, `Http.Route.Forward.pattern`: Whom a
  route asks, and what.
* `Rehearsal.Dispatched`: Which of the calls reach their clients, and what becomes of them at once.
* `Rehearsal.Yields`: The outcome of a call.
* `FailsWith`: The status that a failed call is answered with.
* `Decided`: The answer that the outcomes of the calls come to.
* `Rehearsal.Answered`: How a request that was put to the backends may be answered.

## Theorems

* `Rehearsal.inquire_targets`, `Rehearsal.inquire_dispatched`: The calls of an inquiry, and what
  they ask of the clients.
* `Rehearsal.Later.yields`: What calls come to that have all settled.
* `decided_conclude`: What the outcomes come to is decided by them.
* `Rehearsal.answered_of_fate`: A request that keeps to its fate is answered so.
-/

namespace Gateway

open Http

namespace Http.Route.Forward

/-- The targets that a route asks, out of those that are registered for a broadcast. -/
def targets (what : Forward) (registered : List Target) : List Target :=
  match what with
  | .send target _ => [target]
  | .broadcast _ => registered

/-- Whether a reply is expected. -/
def kind : Forward → CallKind
  | .send _ _ => .request
  | .broadcast _ => .event

/-- The pattern that is asked for. -/
def pattern : Forward → String
  | .send _ pattern => pattern
  | .broadcast pattern => pattern

/-- What the calls are made for. -/
def purpose : Forward → Purpose
  | .send _ _ => .single
  | .broadcast _ => .broadcast

end Http.Route.Forward

namespace Rehearsal

/-! ## What Is Asked -/

/-- A flight is that of a call to a target, which its client has had since a given time. -/
def IsCallTo (r : Rehearsal) (kind : CallKind) (pattern : String) (payload : Json) (timeout : Nat)
    (target : Target) (n : Nat) (f : Flight) : Prop :=
  ∃ line id, (target, line.backend) ∈ r.board.backends ∧ line.target = target
    ∧ f = Flight.ofCall .full line ⟨⟨id, target, kind, timeout⟩, pattern, payload⟩ r.now n

section Dispatched

variable (r : Rehearsal) (kind : CallKind) (pattern : String) (payload : Json) (timeout : Nat)
  (flights : Nat → Option Flight)

/-- What became at once of calls that were placed one after another, the first of them when so many
    permits were free, and whose clients were asked. -/
inductive Dispatched : Nat → List Leg → List Target → Prop
  /-- No call was placed. -/
  | nil (free : Nat) : Dispatched free [] []
  /-- The first call has no client that it could go to. -/
  | unknown (free : Nat) (target : Target) (legs : List Leg) (reached : List Target)
      (hunknown : target ∉ r.board.targets) (rest : Dispatched free legs reached) :
      Dispatched free (⟨target, .settled (.error (.unknownTarget target.name))⟩ :: legs) reached
  /-- It was turned away for want of a permit. -/
  | overloaded (free : Nat) (target : Target) (legs : List Leg) (reached : List Target)
      (hknown : target ∈ r.board.targets) (hnone : free = 0) (rest : Dispatched free legs reached) :
      Dispatched free (⟨target, .settled (.error .overloaded)⟩ :: legs) reached
  /-- Its client was asked, and it settled at once. The next call may have its permit. -/
  | prompt (free : Nat) (target : Target) (legs : List Leg) (reached : List Target) (n : Nat)
      (f : Flight) (result : CallResult) (answered : Bool) (hfree : 0 < free)
      (hcall : IsCallTo r kind pattern payload timeout target n f)
      (hout : f.outcome? r.now = some (result, answered)) (rest : Dispatched free legs reached) :
      Dispatched free (⟨target, .settled result⟩ :: legs) (target :: reached)
  /-- Its client was asked, and it is under way. -/
  | underWay (free : Nat) (target : Target) (legs : List Leg) (reached : List Target) (n : Nat)
      (f : Flight) (hfree : 0 < free) (hcall : IsCallTo r kind pattern payload timeout target n f)
      (hf : flights n = some f) (rest : Dispatched (free - 1) legs reached) :
      Dispatched free (⟨target, .flying n⟩ :: legs) (target :: reached)

variable {r flights}

/-- One more call is placed, before the others. -/
theorem Dispatched.place (s : Rehearsal) (hnow : s.now = r.now)
    (hbackends : s.board.backends = r.board.backends)
    (hbelow : ∀ e ∈ s.board.flights, e.1 < s.orders) (target : Target) {legs : List Leg}
    {reached : List Target}
    (hkept : flights s.orders
      = (s.place kind target pattern payload timeout).1.board.flight? s.orders)
    (h : Dispatched r kind pattern payload timeout flights
      (s.place kind target pattern payload timeout).1.board.permits.free legs reached) :
    ∃ asked : List Target,
      Dispatched r kind pattern payload timeout flights s.board.permits.free
          ((s.place kind target pattern payload timeout).2 :: legs) (asked ++ reached)
        ∧ (s.place kind target pattern payload timeout).1.board.asked
          = (asked.map fun t => Trace.reached kind t pattern payload).reverse ++ s.board.asked := by
  have htargets : s.board.targets = r.board.targets := by
    rw [Switchboard.targets_eq, hbackends, Switchboard.targets_eq]
  -- The client of a line that has a call is one of those at the start.
  have hbackend : ∀ line ∈ s.board.lines, line.target = target →
      (target, line.backend) ∈ r.board.backends := fun line hline hsame => by
    rw [← hbackends, ← hsame]
    exact List.mem_map_of_mem hline
  have hfares := Switchboard.place_fares s.board target kind pattern payload timeout s.now s.orders
    fun e he => Nat.ne_of_lt (hbelow e he)
  unfold Rehearsal.place at h hkept ⊢
  rcases hplace : s.board.place target kind pattern payload timeout s.now s.orders with ⟨c, placed⟩
  rw [hplace] at hfares h hkept
  simp only at h hkept ⊢
  cases hfares with
  | unknown hunknown =>
      exact ⟨[], .unknown _ target legs reached (htargets ▸ hunknown) h, rfl⟩
  | overloaded _ hknown hnone hfree hasked =>
      rw [hfree, ← hnone] at h
      exact ⟨[], .overloaded _ target legs reached (htargets ▸ hknown) hnone h, hasked⟩
  | prompt _ line result answered hline hsame hsome hfree hasked hout =>
      rw [hfree] at h
      rw [hnow] at hout
      exact ⟨[target], .prompt _ target legs reached s.orders _ result answered hsome
        ⟨line, _, hbackend line hline hsame, hsame, rfl⟩ hout h, hasked⟩
  | underWay _ line hline hsame hsome hfree hasked hflight =>
      rw [hfree] at h
      rw [hnow] at hflight
      exact ⟨[target], .underWay _ target legs reached s.orders _ hsome
        ⟨line, _, hbackend line hline hsame, hsame, rfl⟩ (hkept.trans hflight) h, hasked⟩

/-- Calls that are placed one after another ask their clients, each as far as it has one and a
    permit is free. -/
theorem dispatched_placeAll (s : Rehearsal) (targets : List Target) (hnow : s.now = r.now)
    (hbackends : s.board.backends = r.board.backends)
    (hbelow : ∀ e ∈ s.board.flights, e.1 < s.orders) :
    ∃ reached : List Target,
      Dispatched r kind pattern payload timeout
          (placeAll kind pattern payload timeout s targets).1.board.flight? s.board.permits.free
          (placeAll kind pattern payload timeout s targets).2 reached
        ∧ (placeAll kind pattern payload timeout s targets).1.board.asked
          = (reached.map fun t => Trace.reached kind t pattern payload).reverse
            ++ s.board.asked := by
  induction targets generalizing s with
  | nil => exact ⟨[], .nil _, rfl⟩
  | cons target targets ih =>
      have hplaced := place_starts s kind target pattern payload timeout
      have hothers := placeAll_starts kind pattern payload timeout
        (s.place kind target pattern payload timeout).1 targets
      -- To the calls after it the first flight is one of those there were.
      rcases ih (s.place kind target pattern payload timeout).1 hnow
        ((Switchboard.place_backends _ _ _ _ _ _ _ _).trans hbackends)
        (hplaced.spares.below hbelow) with ⟨reached, hrest, hasked⟩
      have hkept := hothers.spares.kept s.orders (Nat.lt_add_of_pos_right (by decide))
      rcases hrest.place kind pattern payload timeout s hnow hbackends hbelow target hkept with
        ⟨first, hdispatched, hfirst⟩
      refine ⟨first ++ reached, hdispatched, hasked.trans ?_⟩
      rw [hfirst, List.map_append, List.reverse_append, List.append_assoc]

end Dispatched

theorem placeAll_targets (kind : CallKind) (pattern : String) (payload : Json) (timeout : Nat)
    (r : Rehearsal) (targets : List Target) :
    (placeAll kind pattern payload timeout r targets).2.map Leg.target = targets := by
  induction targets generalizing r with
  | nil => rfl
  | cons t targets ih => exact congrArg (t :: ·) (ih _)

/-- An inquiry asks the clients of its targets for the pattern of the route with the payload as it
    is, one call for each. -/
theorem inquire_dispatched (r s : Rehearsal) (what : Route.Forward) (payload : Json)
    (hnow : s.now = r.now) (hbackends : s.board.backends = r.board.backends)
    (hbelow : ∀ e ∈ s.board.flights, e.1 < s.orders) :
    ∃ reached : List Target,
      Dispatched r what.kind what.pattern payload s.board.defaultTimeout
          (s.inquire (Api.inquiry what payload)).1.board.flight? s.board.permits.free
          (s.inquire (Api.inquiry what payload)).2.1 reached
        ∧ (s.inquire (Api.inquiry what payload)).1.board.asked
          = (reached.map fun t => Trace.reached what.kind t what.pattern payload).reverse
            ++ s.board.asked := by
  cases what with
  | send target pattern =>
      -- A single call is a list of one.
      exact dispatched_placeAll .request pattern payload s.board.defaultTimeout s [target] hnow
        hbackends hbelow
  | broadcast pattern =>
      exact dispatched_placeAll .event pattern payload s.board.defaultTimeout s s.board.targets hnow
        hbackends hbelow

theorem inquire_targets (r : Rehearsal) (what : Route.Forward) (payload : Json) :
    (r.inquire (Api.inquiry what payload)).2.1.map Leg.target = what.targets r.board.targets := by
  cases what with
  | send target pattern => rfl
  | broadcast pattern =>
      exact placeAll_targets .event pattern payload r.board.defaultTimeout r r.board.targets

theorem inquire_purpose (r : Rehearsal) (what : Route.Forward) (payload : Json) :
    (r.inquire (Api.inquiry what payload)).2.2 = what.purpose := by
  cases what <;> rfl

/-! ## What the Calls Come To -/

/-- What a call comes to that was placed: what it settled to at once, or what its flight comes to at
    some time. -/
inductive Yields (flights : Nat → Option Flight) : Leg → Outcome → Prop
  /-- The call settled at once. -/
  | settled (target : Target) (result : CallResult) :
      Yields flights ⟨target, .settled result⟩ ⟨target, result⟩
  /-- The call was under way. -/
  | landed (target : Target) (n now : Nat) (f : Flight) (result : CallResult) (answered : Bool)
      (hf : flights n = some f) (hout : f.outcome? now = some (result, answered)) :
      Yields flights ⟨target, .flying n⟩ ⟨target, result⟩

section Flights

variable {flights : Nat → Option Flight} {legs later : List Leg} {outcomes : List Outcome}

theorem Yields.target {leg : Leg} {o : Outcome} (h : Yields flights leg o) :
    o.target = leg.target := by
  cases h <;> rfl

/-- Calls that have all settled later on have come to the outcomes that are seen. -/
theorem Later.yields (h : Later flights legs later) (hall : outcomes? later = some outcomes) :
    List.Forall₂ (Yields flights) legs outcomes := by
  induction h generalizing outcomes with
  | nil =>
      rw [← Option.some.inj hall]
      exact .nil
  | kept leg h ih =>
      rw [outcomes?_cons] at hall
      -- A call that is still under way has no outcome.
      rcases leg with ⟨target, result | n⟩
      · rcases Option.map_eq_some_iff.mp hall with ⟨rest, hrest, rfl⟩
        exact .cons (.settled target result) (ih hrest)
      · exact absurd hall (Option.some_ne_none outcomes).symm
  | settles target n now f result answered hf hout h ih =>
      rw [outcomes?_cons] at hall
      rcases Option.map_eq_some_iff.mp hall with ⟨rest, hrest, rfl⟩
      exact .cons (.landed target n now f result answered hf hout) (ih hrest)

theorem map_target_of_yields (h : List.Forall₂ (Yields flights) legs outcomes) :
    outcomes.map Outcome.target = legs.map Leg.target := by
  induction h with
  | nil => rfl
  | cons hfirst _ ih => rw [List.map_cons, List.map_cons, hfirst.target, ih]

end Flights

end Rehearsal

/-! ## What the Outcomes Decide -/

/-- The status that a failed call is answered with. -/
inductive FailsWith : CallError → Nat → Prop
  /-- The backend took too long. -/
  | timeout (target : Target) (ms : Nat) : FailsWith (.timeout target ms) 504
  /-- Too many calls were under way. -/
  | overloaded : FailsWith .overloaded 503
  /-- There is no client for the target. -/
  | unknownTarget (name : String) : FailsWith (.unknownTarget name) 500
  /-- The call failed at its target, and not for want of time. -/
  | target (e : CallError) (t : Target) (htarget : e.target? = some t)
      (hintime : ∀ ms, e ≠ .timeout t ms) : FailsWith e 502

theorem failsWith_status (e : CallError) : FailsWith e e.status := by
  cases e with
  | timeout t ms => exact .timeout t ms
  | overloaded => exact .overloaded
  | unknownTarget name => exact .unknownTarget name
  | transport t kind text | connectionClosed t | remote t text | emptyResponse t | codec t source =>
      exact .target _ t rfl fun ms h => CallError.noConfusion h

/-- The answer that the outcomes of the calls come to, for each way to forward a request. -/
inductive Decided : Route.Forward → List Outcome → Response → Prop
  /-- The value of a call is created. -/
  | created (target : Target) (pattern : String) (v : Json) :
      Decided (.send target pattern) [⟨target, .ok v⟩] (.ofJson 201 v)
  /-- A call that failed is told of. -/
  | failed (target : Target) (pattern : String) (e : CallError) (status : Nat)
      (hstatus : FailsWith e status) :
      Decided (.send target pattern) [⟨target, .error e⟩]
        (.ofJson status (.object [("error", .string e.message)]))
  /-- All targets acknowledged the event, and their values are the answer. -/
  | acknowledged (pattern : String) (outcomes : List Outcome) (vs : List Json)
      (hvalues : outcomes.map Outcome.result = vs.map .ok) :
      Decided (.broadcast pattern) outcomes (.ofJson 201 (.array vs))
  /-- Some target did not, and it is told who did and who did not. -/
  | missed (pattern : String) (report : Report) (hfailed : report.failed ≠ []) :
      Decided (.broadcast pattern) report.outcomes
        (.ofJson 502 (.object
          [("delivered", .array (report.delivered.map Target.json)),
            ("error", .string ("broadcast failed for "
              ++ ", ".intercalate (report.failed.map BroadcastError.entry) ++ "; delivered to "
              ++ Decimal.text report.delivered.length ++ " target(s)")),
            ("failed", .array (report.failed.map BroadcastError.item))]))

theorem decided_created (target : Target) (pattern : String) (result : CallResult) :
    Decided (.send target pattern) [⟨target, result⟩] (Api.created result) := by
  cases result with
  | ok v => exact .created target pattern v
  | error e => exact .failed target pattern e e.status (failsWith_status e)

theorem decided_acknowledged (pattern : String) (report : Report) :
    Decided (.broadcast pattern) report.outcomes (Api.acknowledged report) := by
  unfold Api.acknowledged
  cases hvalues : report.values with
  | ok vs => exact .acknowledged pattern _ vs ((report.values_ok_iff vs).mp hvalues)
  | error e =>
      rcases (report.values_error_iff e).mp hvalues with ⟨hsome, hfailed, hdelivered⟩
      have hmissed := Decided.missed pattern report hsome
      rw [← hfailed, ← hdelivered] at hmissed
      exact hmissed

/-- What the outcomes of the calls of a route come to is decided by them. -/
theorem decided_conclude (what : Route.Forward) (registered : List Target)
    (outcomes : List Outcome) (h : outcomes.map Outcome.target = what.targets registered) :
    Decided what outcomes (Rehearsal.answer (what.purpose.conclude outcomes)) := by
  cases what with
  | send target pattern =>
      -- There is one outcome, and it is that of the target.
      rcases List.map_eq_singleton_iff.mp h with ⟨⟨_, result⟩, rfl, rfl⟩
      exact decided_created _ pattern result
  | broadcast pattern => exact decided_acknowledged pattern ⟨outcomes⟩

/-! ## How a Request Is Answered -/

namespace Rehearsal

section Flights

variable {flights : Nat → Option Flight} {legs : List Leg} {what : Route.Forward} {visit : Visit}
  {response : Response}

/-- How a request may be answered that was put to the backends, when its calls were given
    flights. -/
inductive Answered (flights : Nat → Option Flight) (legs : List Leg) (what : Route.Forward)
    (limit : Option Timer) (response : Response) : Prop
  /-- What its own calls came to decides the answer. -/
  | decided (outcomes : List Outcome) (part : Response)
      (houtcomes : List.Forall₂ (Yields flights) legs outcomes)
      (hdecided : Decided what outcomes part) (hcarries : response.Carries part)
  /-- The layers around the interface lost patience. -/
  | late (hlimit : limit.isSome) (hcarries : response.Carries (.bare 408))

/-- A request that keeps to its fate is answered with what its calls come to, or too late. -/
theorem answered_of_fate (registered : List Target)
    (htargets : legs.map Leg.target = what.targets registered)
    (h : Fate flights legs what.purpose visit (.ended (.response response))) :
    Answered flights legs what visit.limit response := by
  cases h with
  | answered later outcomes _ hlater hall hcarries =>
      have hcomes := hlater.yields hall
      have hsame := (map_target_of_yields hcomes).trans htargets
      exact .decided outcomes _ hcomes (decided_conclude what registered outcomes hsame) hcarries
  | late _ hlimit hcarries => exact .late hlimit hcarries

end Flights

end Rehearsal

end Gateway
