import Gateway.Switchboard

/-!
# What Becomes of a Call

A call that is placed is turned away, or it reaches the client of one line and is either settled at
once or under way. A flight is settled or given up later. Each operation of the switchboard is put
together from a few small ones that change one field each, and is described here by what it does to
the lines, the permits, the flights and the calls that have reached clients, so that no later proof
opens it.

Of the trace only the calls that reached a client are looked at (`asked`). That a client finished a
call is noted there too, and makes no difference to what was asked of whom.

## Main definitions

* `Switchboard.asked`: The calls that have reached clients.
* `Flight.ofCall`: The flight of a call whose client has it.
* `Switchboard.backends`: Which backend is behind which client.
* `Switchboard.handed`: The switchboard once a client has a call.
* `Switchboard.Numbered`: A call is placed under a number.
* `Switchboard.Fares`: What becomes of a call at once.

## Theorems

* `Switchboard.hand_cases`: A call whose client has it settles at once or is under way.
* `Switchboard.placeOn_cases`, `Switchboard.place_cases`: A call is turned away, or a client has it.
* `Switchboard.land_of_due`, `Switchboard.abandon_of_flight`: How a flight ends.
* `Switchboard.dismiss_flights`: A flight that ends is the only one to go.
* `Switchboard.place_fares`: What becomes of a call to a target at once.
-/

namespace Gateway

/-- A line of the trace says that a call reached a client. -/
def Trace.isReached : Trace → Bool
  | .reached _ _ _ _ => true
  | _ => false

/-- The line of the trace for a call that reaches the client of a target. -/
def Call.arrival (c : Call) (client : Target) : Trace :=
  .reached c.context.kind client c.pattern c.payload

/-- The flight of a call that the client of a line has. -/
def Flight.ofCall (layers : Layers) (line : Line) (call : Call) (now order : Nat) : Flight where
  context := call.context
  client := line.target
  answer := (line.backend.answer line.served call).result
  reply := ⟨now + (line.backend.answer line.served call).after.getD 0, order⟩
  limit := if layers.timed then some ⟨now + call.context.timeout, order + 1⟩ else none
  holdsPermit := layers.limited
  counted := layers.counted

namespace Switchboard

/-- The calls that have reached clients, latest first. -/
def asked (b : Switchboard) : List Trace :=
  b.trace.filter Trace.isReached

/-- The backends with the targets of their clients. -/
def backends (b : Switchboard) : List (Target × Backend) :=
  b.lines.map fun l => (l.target, l.backend)

/-- The switchboard once the client of a line has a call. -/
def handed (b : Switchboard) (index : Nat) (line : Line) (call : Call) : Switchboard :=
  { b.note (call.arrival line.target) with
    lines := b.lines.set index { line with served := line.served + 1 } }

section Parts

variable (b : Switchboard) (counted held : Bool) (context : Context) (result : CallResult)

@[simp] theorem count_lines : (b.count counted context result).lines = b.lines := by
  unfold count
  split <;> rfl

@[simp] theorem count_permits : (b.count counted context result).permits = b.permits := by
  unfold count
  split <;> rfl

@[simp] theorem count_flights : (b.count counted context result).flights = b.flights := by
  unfold count
  split <;> rfl

@[simp] theorem count_trace : (b.count counted context result).trace = b.trace := by
  unfold count
  split <;> rfl

@[simp] theorem count_nextCall : (b.count counted context result).nextCall = b.nextCall := by
  unfold count
  split <;> rfl

@[simp] theorem giveBack_lines : (b.giveBack held).lines = b.lines := by
  unfold giveBack
  split <;> rfl

@[simp] theorem giveBack_permits :
    (b.giveBack held).permits = if held then b.permits.release else b.permits := by
  unfold giveBack
  split <;> rfl

@[simp] theorem giveBack_flights : (b.giveBack held).flights = b.flights := by
  unfold giveBack
  split <;> rfl

@[simp] theorem giveBack_trace : (b.giveBack held).trace = b.trace := by
  unfold giveBack
  split <;> rfl

@[simp] theorem giveBack_nextCall : (b.giveBack held).nextCall = b.nextCall := by
  unfold giveBack
  split <;> rfl

end Parts

section Finish

variable (b : Switchboard) (f : Flight) (result : CallResult) (answered : Bool)

@[simp] theorem finish_lines : (b.finish f result answered).lines = b.lines := by
  cases answered <;> simp [finish, note]

@[simp] theorem finish_permits : (b.finish f result answered).permits
    = if f.holdsPermit then b.permits.release else b.permits := by
  cases answered <;> simp [finish, note]

@[simp] theorem finish_flights : (b.finish f result answered).flights = b.flights := by
  cases answered <;> simp [finish, note]

@[simp] theorem finish_nextCall : (b.finish f result answered).nextCall = b.nextCall := by
  cases answered <;> simp [finish, note]

/-- Of a call that ends it is told that it was finished if it was answered. -/
theorem finish_trace : (b.finish f result answered).trace
    = (if answered then [.finished f.client] else []) ++ b.trace := by
  cases answered <;> simp [finish, note]

/-- That a call ends asks nothing of anybody. -/
@[simp] theorem finish_asked : (b.finish f result answered).asked = b.asked := by
  cases answered <;> simp [finish, asked, note, Trace.isReached]

end Finish

/-! ## Placing -/

/-- A call whose client has it settles at once, or is under way. -/
theorem hand_cases (b : Switchboard) (layers : Layers) (index : Nat) (line : Line) (call : Call)
    (now order : Nat) :
    (∃ result answered,
      (Flight.ofCall layers line call now order).outcome? now = some (result, answered)
        ∧ b.hand layers index line call now order
          = ((b.handed index line call).finish (Flight.ofCall layers line call now order) result
            answered, .settled result))
      ∨ ((Flight.ofCall layers line call now order).outcome? now = none
        ∧ b.hand layers index line call now order
          = ({ b.handed index line call with
              flights := b.flights ++ [(order, Flight.ofCall layers line call now order)] },
            .flying order)) := by
  cases hout : (Flight.ofCall layers line call now order).outcome? now with
  | some out =>
      rcases out with ⟨result, answered⟩
      refine Or.inl ⟨result, answered, rfl, ?_⟩
      unfold Flight.ofCall at hout
      unfold hand
      simp only [hout]
      rfl
  | none =>
      refine Or.inr ⟨rfl, ?_⟩
      unfold Flight.ofCall at hout
      unfold hand
      simp only [hout]
      rfl

theorem asked_handed (b : Switchboard) (index : Nat) (line : Line) (call : Call) :
    (b.handed index line call).asked = call.arrival line.target :: b.asked := rfl

/-- A call whose client has it was asked of that client, and of nobody else. -/
theorem hand_asked (b : Switchboard) (layers : Layers) (index : Nat) (line : Line) (call : Call)
    (now order : Nat) :
    (b.hand layers index line call now order).1.asked = call.arrival line.target :: b.asked := by
  rcases hand_cases b layers index line call now order with
    ⟨result, answered, _, hhand⟩ | ⟨_, hhand⟩
  · rw [hhand]
    exact (finish_asked _ _ _ _).trans (asked_handed b index line call)
  · rw [hhand]
    exact asked_handed b index line call

/-- A call on a line that needs a permit is turned away if there is none, and otherwise its client
    has it. -/
theorem placeOn_cases (b : Switchboard) (layers : Layers) (index : Nat) (line : Line) (call : Call)
    (now order : Nat) (hlimited : layers.limited = true) (hline : b.lines[index]? = some line) :
    (b.permits.taken = b.permits.limit
      ∧ b.placeOn layers index call now order
        = (b.count layers.counted call.context (.error .overloaded),
          .settled (.error .overloaded)))
      ∨ ∃ h : b.permits.taken < b.permits.limit,
        b.placeOn layers index call now order
          = ({ b with permits := ⟨b.permits.limit, b.permits.taken + 1, h⟩ } : Switchboard).hand
            layers index line call now order := by
  unfold placeOn Permits.acquire?
  by_cases h : b.permits.taken < b.permits.limit
  · right
    refine ⟨h, ?_⟩
    simp only [hline, hlimited, if_true, dif_pos h]
  · left
    refine ⟨Nat.le_antisymm b.permits.taken_le (by omega), ?_⟩
    simp only [hline, hlimited, if_true, dif_neg h]

theorem placeOn_of_no_line (b : Switchboard) (layers : Layers) (index : Nat) (call : Call)
    (now order : Nat) (hline : b.lines[index]? = none) :
    b.placeOn layers index call now order
      = (b, .settled (.error (.unknownTarget call.context.target.name))) := by
  unfold placeOn
  rw [hline]

/-- Without the permits among the layers the client of the line has the call in any case. -/
theorem placeOn_of_not_limited (b : Switchboard) (layers : Layers) (index : Nat) (line : Line)
    (call : Call) (now order : Nat) (hlimited : ¬ layers.limited = true)
    (hline : b.lines[index]? = some line) :
    b.placeOn layers index call now order = b.hand layers index line call now order := by
  unfold placeOn
  simp only [hline, if_neg hlimited]

/-- A call to a target is a call on a line of the target, under the next number, if there is a
    line. -/
theorem place_cases (b : Switchboard) (target : Target) (kind : CallKind) (pattern : String)
    (payload : Json) (timeout now order : Nat) :
    (target ∉ b.targets
      ∧ b.place target kind pattern payload timeout now order
        = (b, .settled (.error (.unknownTarget target.name))))
      ∨ ∃ index line, b.lines[index]? = some line ∧ line.target = target
        ∧ b.place target kind pattern payload timeout now order
          = placeOn { b with nextCall := b.nextCall + 1 } .full index
            ⟨⟨b.nextCall, target, kind, timeout⟩, pattern, payload⟩ now order := by
  unfold place
  cases hindex : b.lines.findIdx? fun l => l.target == target with
  | none =>
      refine Or.inl ⟨fun hmem => ?_, rfl⟩
      rcases List.mem_map.mp hmem with ⟨line, hline, hsame⟩
      have hother := List.findIdx?_eq_none_iff.mp hindex line hline
      rw [hsame, beq_self_eq_true] at hother
      exact absurd hother (by simp only [reduceCtorEq, not_false_eq_true])
  | some index =>
      rcases List.findIdx?_eq_some_iff_getElem.mp hindex with ⟨hlt, hfound, _⟩
      exact Or.inr ⟨index, b.lines[index], List.getElem?_eq_getElem hlt, beq_iff_eq.mp hfound, rfl⟩

/-! ## Settling and Giving Up -/

theorem mem_of_flight? (b : Switchboard) (n : Nat) (f : Flight) (h : b.flight? n = some f) :
    (n, f) ∈ b.flights := by
  unfold flight? at h
  rcases Option.map_eq_some_iff.mp h with ⟨e, he, hf⟩
  have hkey := List.find?_some he
  have hmem := List.mem_of_find?_eq_some he
  rw [← beq_iff_eq.mp hkey, ← hf]
  exact hmem

theorem flight?_eq_none_iff (b : Switchboard) (n : Nat) :
    b.flight? n = none ↔ n ∉ b.flights.map Prod.fst := by
  unfold flight?
  rw [Option.map_eq_none_iff, List.find?_eq_none]
  constructor
  · intro hnone hmem
    rcases List.mem_map.mp hmem with ⟨e, he, hkey⟩
    exact hnone e he (beq_iff_eq.mpr hkey)
  · intro hnot e he hkey
    exact hnot (List.mem_map.mpr ⟨e, he, beq_iff_eq.mp hkey⟩)

/-- A flight that ends is the only one to go. -/
theorem dismiss_flights (b : Switchboard) (n : Nat) (f : Flight) (h : b.flight? n = some f)
    (hdistinct : (b.flights.map Prod.fst).Nodup) :
    (b.dismiss n).flights.length + 1 = b.flights.length
      ∧ (b.dismiss n).flights.Sublist b.flights ∧ (b.dismiss n).flight? n = none := by
  refine ⟨?_, List.filter_sublist, ?_⟩
  · -- Among distinct numbers filtering one out is erasing it, which takes one away.
    have hmem := List.mem_map_of_mem (f := Prod.fst) (mem_of_flight? b n f h)
    have hlength := List.length_erase_of_mem hmem
    have hpos := List.length_pos_of_mem hmem
    rw [hdistinct.erase_eq_filter] at hlength
    simp only [dismiss, List.filter_map, List.length_map] at hlength hpos ⊢
    have hsame : ((fun e => e != n) ∘ Prod.fst : Nat × Flight → Bool) = fun e => e.1 != n := rfl
    rw [hsame] at hlength
    omega
  · rw [flight?_eq_none_iff]
    simp [dismiss]

theorem land_of_pending (b : Switchboard) (n now : Nat) (f : Flight) (h : b.flight? n = some f)
    (hout : f.outcome? now = none) : b.land n now = (b, none) := by
  unfold land
  simp only [h, hout]

theorem land_of_due (b : Switchboard) (n now : Nat) (f : Flight) (result : CallResult)
    (answered : Bool) (h : b.flight? n = some f) (hout : f.outcome? now = some (result, answered)) :
    b.land n now = ((b.dismiss n).finish f result answered, some result) := by
  unfold land
  simp only [h, hout]

theorem land_of_no_flight (b : Switchboard) (n now : Nat) (h : b.flight? n = none) :
    b.land n now = (b, none) := by
  unfold land
  rw [h]

theorem abandon_of_flight (b : Switchboard) (n : Nat) (f : Flight) (h : b.flight? n = some f) :
    b.abandon n = (b.dismiss n).giveBack f.holdsPermit := by
  unfold abandon
  rw [h]

theorem abandon_of_no_flight (b : Switchboard) (n : Nat) (h : b.flight? n = none) :
    b.abandon n = b := by
  unfold abandon
  rw [h]

/-- What a flight settles to is its own outcome. -/
theorem outcome?_of_land (b : Switchboard) (n now : Nat) (result : CallResult)
    (h : (b.land n now).2 = some result) :
    ∃ f answered, b.flight? n = some f ∧ f.outcome? now = some (result, answered) := by
  cases hf : b.flight? n with
  | none =>
      rw [land_of_no_flight b n now hf] at h
      exact absurd h.symm (Option.some_ne_none result)
  | some f =>
      cases hout : f.outcome? now with
      | none =>
          rw [land_of_pending b n now f hf hout] at h
          exact absurd h.symm (Option.some_ne_none result)
      | some out =>
          rw [land_of_due b n now f out.1 out.2 hf hout] at h
          exact ⟨f, out.2, rfl, by rw [hout, ← Option.some.inj h]⟩

/-- A flight that does not settle is left as it was, and so is everything else. -/
theorem land_of_none (b : Switchboard) (n now : Nat) (h : (b.land n now).2 = none) :
    (b.land n now).1 = b := by
  cases hf : b.flight? n with
  | none => rw [land_of_no_flight b n now hf]
  | some f =>
      cases hout : f.outcome? now with
      | none => rw [land_of_pending b n now f hf hout]
      | some out =>
          rw [land_of_due b n now f out.1 out.2 hf hout] at h
          exact absurd h (Option.some_ne_none _)

/-- And what does not settle was not due, if it was a flight at all. -/
theorem outcome?_of_not_land (b : Switchboard) (n now : Nat) (h : (b.land n now).2 = none) :
    ((b.flight? n).bind fun f => f.outcome? now) = none := by
  cases hf : b.flight? n with
  | none => rfl
  | some f =>
      rw [Option.bind_some]
      cases hout : f.outcome? now with
      | none => rfl
      | some out =>
          rw [land_of_due b n now f out.1 out.2 hf hout] at h
          exact absurd h (Option.some_ne_none _)

/-! ## Other Flights -/

theorem flight?_congr (b c : Switchboard) (m : Nat) (h : c.flights = b.flights) :
    c.flight? m = b.flight? m := by
  unfold flight?
  rw [h]

theorem flight?_dismiss_ne (b : Switchboard) (n m : Nat) (h : m ≠ n) :
    (b.dismiss n).flight? m = b.flight? m := by
  unfold flight? dismiss
  rw [List.find?_filter]
  congr 2
  funext e
  by_cases hm : e.1 = m
  · simp [hm, h]
  · simp [hm]

theorem flight?_append_ne (b : Switchboard) (f : Flight) (order m : Nat) (h : m ≠ order) :
    ({ b with flights := b.flights ++ [(order, f)] } : Switchboard).flight? m = b.flight? m := by
  have hother : (order == m) = false := beq_eq_false_iff_ne.mpr (Ne.symm h)
  unfold flight?
  simp only [List.find?_append, List.find?_singleton, hother, Bool.false_eq_true, if_false,
    Option.or_none]

/-- The flight that was added is the one of its number, if none of those before it has that. -/
theorem flight?_append_self (b c : Switchboard) (f : Flight) (order : Nat)
    (hunused : ∀ e ∈ b.flights, e.1 ≠ order) (h : c.flights = b.flights ++ [(order, f)]) :
    c.flight? order = some f := by
  have hnone : b.flights.find? (fun e => e.1 == order) = none := by
    rw [List.find?_eq_none]
    intro e he hc
    exact hunused e he (beq_iff_eq.mp hc)
  unfold flight?
  simp only [h, List.find?_append, hnone, Option.none_or, List.find?_singleton,
    beq_self_eq_true, if_true, Option.map_some]

theorem land_flight?_ne (b : Switchboard) (n now m : Nat) (h : m ≠ n) :
    (b.land n now).1.flight? m = b.flight? m := by
  cases hf : b.flight? n with
  | none => rw [land_of_no_flight b n now hf]
  | some f =>
      cases hout : f.outcome? now with
      | none => rw [land_of_pending b n now f hf hout]
      | some out =>
          rw [land_of_due b n now f out.1 out.2 hf hout,
            flight?_congr _ _ m (finish_flights (b.dismiss n) f out.1 out.2)]
          exact flight?_dismiss_ne b n m h

theorem abandon_flight?_ne (b : Switchboard) (n m : Nat) (h : m ≠ n) :
    (b.abandon n).flight? m = b.flight? m := by
  cases hf : b.flight? n with
  | none => rw [abandon_of_no_flight b n hf]
  | some f =>
      rw [abandon_of_flight b n f hf, flight?_congr _ _ m (giveBack_flights (b.dismiss n) _)]
      exact flight?_dismiss_ne b n m h

theorem mem_of_mem_land (b : Switchboard) (n now : Nat) (e : Nat × Flight)
    (h : e ∈ (b.land n now).1.flights) : e ∈ b.flights := by
  cases hf : b.flight? n with
  | none =>
      rw [land_of_no_flight b n now hf] at h
      exact h
  | some f =>
      cases hout : f.outcome? now with
      | none =>
          rw [land_of_pending b n now f hf hout] at h
          exact h
      | some out =>
          rw [land_of_due b n now f out.1 out.2 hf hout, finish_flights] at h
          exact (List.mem_filter.mp h).1

theorem mem_of_mem_abandon (b : Switchboard) (n : Nat) (e : Nat × Flight)
    (h : e ∈ (b.abandon n).flights) : e ∈ b.flights := by
  cases hf : b.flight? n with
  | none =>
      rw [abandon_of_no_flight b n hf] at h
      exact h
  | some f =>
      rw [abandon_of_flight b n f hf, giveBack_flights] at h
      exact (List.mem_filter.mp h).1

/-- A call is placed under a number: no flight is new but that of the number, and no other is
    touched. -/
structure Numbered (b : Switchboard) (order : Nat) (did : Switchboard × Placed) : Prop where
  others : ∀ m, m ≠ order → did.1.flight? m = b.flight? m
  new : ∀ e ∈ did.1.flights, e ∈ b.flights ∨ e.1 = order
  flying : ∀ n, did.2 = .flying n → n = order

/-- A call that has settled at once leaves no flight. -/
theorem numbered_settled (b c : Switchboard) (order : Nat) (result : CallResult)
    (h : c.flights = b.flights) : Numbered b order (c, .settled result) := by
  refine ⟨fun m _ => flight?_congr b c m h, fun e he => Or.inl ?_, fun n hn => ?_⟩
  · exact h ▸ he
  · exact absurd hn Placed.noConfusion

theorem numbered_hand (b : Switchboard) (layers : Layers) (index : Nat) (line : Line) (call : Call)
    (now order : Nat) : Numbered b order (b.hand layers index line call now order) := by
  rcases hand_cases b layers index line call now order with
    ⟨result, answered, _, hhand⟩ | ⟨_, hhand⟩
  · rw [hhand]
    exact numbered_settled b _ order result (finish_flights _ _ _ _)
  · rw [hhand]
    refine ⟨fun m hm => flight?_append_ne (b.handed index line call) _ order m hm,
      fun e he => ?_, fun n hn => (Placed.flying.inj hn).symm⟩
    rcases List.mem_append.mp he with he | he
    · exact Or.inl he
    · rw [List.mem_singleton.mp he]
      exact Or.inr rfl

theorem numbered_placeOn (b : Switchboard) (layers : Layers) (index : Nat) (call : Call)
    (now order : Nat) : Numbered b order (b.placeOn layers index call now order) := by
  cases hline : b.lines[index]? with
  | none =>
      rw [placeOn_of_no_line b layers index call now order hline]
      exact numbered_settled b b order _ rfl
  | some line =>
      by_cases hlimited : layers.limited = true
      · rcases placeOn_cases b layers index line call now order hlimited hline with
          ⟨_, hplace⟩ | ⟨hfree, hplace⟩
        · rw [hplace]
          exact numbered_settled b _ order _ (count_flights b _ _ _)
        · rw [hplace]
          rcases numbered_hand { b with permits := ⟨b.permits.limit, b.permits.taken + 1, hfree⟩ }
            layers index line call now order with ⟨hothers, hnew, hflying⟩
          exact ⟨hothers, hnew, hflying⟩
      · rw [placeOn_of_not_limited b layers index line call now order hlimited hline]
        exact numbered_hand b layers index line call now order

theorem numbered_place (b : Switchboard) (target : Target) (kind : CallKind) (pattern : String)
    (payload : Json) (timeout now order : Nat) :
    Numbered b order (b.place target kind pattern payload timeout now order) := by
  rcases place_cases b target kind pattern payload timeout now order with
    ⟨_, hplace⟩ | ⟨index, line, _, _, hplace⟩
  · rw [hplace]
    exact numbered_settled b b order _ rfl
  · rw [hplace]
    rcases numbered_placeOn { b with nextCall := b.nextCall + 1 } .full index
      ⟨⟨b.nextCall, target, kind, timeout⟩, pattern, payload⟩ now order with
      ⟨hothers, hnew, hflying⟩
    exact ⟨hothers, hnew, hflying⟩

/-- What becomes at once of a call to a target, with the switchboard after it. -/
inductive Fares (b : Switchboard) (call : Call) (now order : Nat) : Switchboard × Placed → Prop
  /-- There is no client for the target. -/
  | unknown (hunknown : call.context.target ∉ b.targets) :
      Fares b call now order (b, .settled (.error (.unknownTarget call.context.target.name)))
  /-- No permit is free. -/
  | overloaded (c : Switchboard) (hknown : call.context.target ∈ b.targets)
      (hnone : b.permits.free = 0) (hfree : c.permits.free = 0) (hasked : c.asked = b.asked) :
      Fares b call now order (c, .settled (.error .overloaded))
  /-- The client of the target has been asked, and the call has settled. -/
  | prompt (c : Switchboard) (line : Line) (result : CallResult) (answered : Bool)
      (hline : line ∈ b.lines) (htarget : line.target = call.context.target)
      (hsome : 0 < b.permits.free) (hfree : c.permits.free = b.permits.free)
      (hasked : c.asked = call.arrival call.context.target :: b.asked)
      (hout : (Flight.ofCall .full line call now order).outcome? now = some (result, answered)) :
      Fares b call now order (c, .settled result)
  /-- It has been asked, and the call is under way. -/
  | underWay (c : Switchboard) (line : Line) (hline : line ∈ b.lines)
      (htarget : line.target = call.context.target) (hsome : 0 < b.permits.free)
      (hfree : c.permits.free = b.permits.free - 1)
      (hasked : c.asked = call.arrival call.context.target :: b.asked)
      (hflight : c.flight? order = some (Flight.ofCall .full line call now order)) :
      Fares b call now order (c, .flying order)

/-- A call to a target is turned away, or it is with the client of the target, and is the flight of
    its number unless it has settled. -/
theorem place_fares (b : Switchboard) (target : Target) (kind : CallKind) (pattern : String)
    (payload : Json) (timeout now order : Nat) (hunused : ∀ e ∈ b.flights, e.1 ≠ order) :
    Fares b ⟨⟨b.nextCall, target, kind, timeout⟩, pattern, payload⟩ now order
      (b.place target kind pattern payload timeout now order) := by
  rcases place_cases b target kind pattern payload timeout now order with
    ⟨hunknown, hplace⟩ | ⟨index, line, hline, htarget, hplace⟩
  · rw [hplace]
    exact .unknown hunknown
  · have hmem : line ∈ b.lines := List.mem_of_getElem? hline
    have hplaced := placeOn_cases { b with nextCall := b.nextCall + 1 } .full index line
      ⟨⟨b.nextCall, target, kind, timeout⟩, pattern, payload⟩ now order rfl hline
    rw [hplace]
    rcases hplaced with ⟨hfull, hplaced⟩ | ⟨hlt, hplaced⟩
    · have hnone : b.permits.free = 0 := Nat.sub_eq_zero_of_le (Nat.le_of_eq hfull.symm)
      rw [hplaced]
      refine .overloaded _ (htarget ▸ List.mem_map_of_mem hmem) hnone ?_ ?_
      · rw [count_permits]
        exact hnone
      · simp only [asked, count_trace]
    · have hsome : 0 < b.permits.free := Nat.sub_pos_of_lt hlt
      have hasked := hand_asked { { b with nextCall := b.nextCall + 1 } with
        permits := ⟨b.permits.limit, b.permits.taken + 1, hlt⟩ } .full index line
        ⟨⟨b.nextCall, target, kind, timeout⟩, pattern, payload⟩ now order
      have hhand := hand_cases { { b with nextCall := b.nextCall + 1 } with
        permits := ⟨b.permits.limit, b.permits.taken + 1, hlt⟩ } .full index line
        ⟨⟨b.nextCall, target, kind, timeout⟩, pattern, payload⟩ now order
      rw [hplaced]
      rw [htarget] at hasked
      rcases hhand with ⟨result, answered, hout, hhand⟩ | ⟨_, hhand⟩
      · rw [hhand] at hasked ⊢
        refine .prompt _ line result answered hmem htarget hsome ?_ hasked hout
        rw [finish_permits]
        rfl
      · rw [hhand] at hasked ⊢
        refine .underWay _ line hmem htarget hsome ?_ hasked ?_
        · exact Nat.sub_succ b.permits.limit b.permits.taken
        · exact flight?_append_self b _ _ order hunused rfl

/-! ## Backends -/

theorem backends_congr {b c : Switchboard} (h : c.lines = b.lines) : c.backends = b.backends := by
  unfold backends
  rw [h]

/-- Whom the lines belong to can be read off the backends. -/
theorem targets_eq (b : Switchboard) : b.targets = b.backends.map Prod.fst := by
  simp only [targets, backends, List.map_map]
  rfl

theorem hand_backends (b : Switchboard) (layers : Layers) (index : Nat) (line : Line) (call : Call)
    (now order : Nat) (hline : b.lines[index]? = some line) :
    (b.hand layers index line call now order).1.backends = b.backends := by
  -- Only how many calls the client has served is written to its line.
  have hset : (b.handed index line call).backends = b.backends := by
    have hpair : (b.lines.map fun l => (l.target, l.backend))[index]?
        = some (line.target, line.backend) := by
      rw [List.getElem?_map, hline]
      rfl
    rcases List.getElem?_eq_some_iff.mp hpair with ⟨hlt, hget⟩
    unfold backends handed
    simp only [List.map_set]
    rw [← hget]
    exact List.set_getElem_self hlt
  rcases hand_cases b layers index line call now order with
    ⟨result, answered, _, hhand⟩ | ⟨_, hhand⟩
  · rw [hhand, ← hset]
    exact backends_congr (finish_lines _ _ _ _)
  · rw [hhand, ← hset]
    rfl

theorem placeOn_backends (b : Switchboard) (layers : Layers) (index : Nat) (call : Call)
    (now order : Nat) :
    (b.placeOn layers index call now order).1.backends = b.backends := by
  cases hline : b.lines[index]? with
  | none => rw [placeOn_of_no_line b layers index call now order hline]
  | some line =>
      by_cases hlimited : layers.limited = true
      · rcases placeOn_cases b layers index line call now order hlimited hline with
          ⟨_, hplace⟩ | ⟨hfree, hplace⟩
        · rw [hplace]
          exact backends_congr (count_lines _ _ _ _)
        · rw [hplace]
          exact hand_backends _ layers index line call now order hline
      · rw [placeOn_of_not_limited b layers index line call now order hlimited hline]
        exact hand_backends b layers index line call now order hline

/-- That a call is placed does not change which backend is behind which client. -/
theorem place_backends (b : Switchboard) (target : Target) (kind : CallKind) (pattern : String)
    (payload : Json) (timeout now order : Nat) :
    (b.place target kind pattern payload timeout now order).1.backends = b.backends := by
  rcases place_cases b target kind pattern payload timeout now order with
    ⟨_, hplace⟩ | ⟨index, line, _, _, hplace⟩
  · rw [hplace]
  · rw [hplace]
    exact placeOn_backends { b with nextCall := b.nextCall + 1 } .full index _ now order

/-- That the clients are closed is written to the trace, as nothing that was asked, and changes
    nothing else. -/
theorem close_eq (b : Switchboard) :
    ∃ trace, b.close = { b with trace := trace } ∧ b.close.asked = b.asked := by
  have hnotes : ∀ (lines : List Line) (c : Switchboard), ∃ trace,
      lines.foldl (fun b l => b.note (.closed l.target)) c = { c with trace := trace }
        ∧ (lines.foldl (fun b l => b.note (.closed l.target)) c).asked = c.asked := by
    intro lines
    induction lines with
    | nil => exact fun c => ⟨c.trace, rfl, rfl⟩
    | cons l lines ih =>
        intro c
        rcases ih (c.note (.closed l.target)) with ⟨trace, hnote, hasked⟩
        exact ⟨trace, hnote, hasked.trans (List.filter_cons_of_neg Bool.false_ne_true)⟩
  exact hnotes b.lines.reverse b

/-- Closing the clients touches no flight. -/
theorem close_flights (b : Switchboard) : b.close.flights = b.flights := by
  rcases close_eq b with ⟨trace, hclose, _⟩
  rw [hclose]

/-- How a flight ends is no matter of the lines. -/
theorem land_lines (b : Switchboard) (n now : Nat) : (b.land n now).1.lines = b.lines := by
  cases hf : b.flight? n with
  | none => rw [land_of_no_flight b n now hf]
  | some f =>
      cases hout : f.outcome? now with
      | none => rw [land_of_pending b n now f hf hout]
      | some out =>
          rw [land_of_due b n now f out.1 out.2 hf hout]
          exact finish_lines (b.dismiss n) f out.1 out.2

theorem abandon_lines (b : Switchboard) (n : Nat) : (b.abandon n).lines = b.lines := by
  cases hf : b.flight? n with
  | none => rw [abandon_of_no_flight b n hf]
  | some f =>
      rw [abandon_of_flight b n f hf]
      exact giveBack_lines (b.dismiss n) f.holdsPermit

/-! ## What Was Asked -/

/-- Settling a flight asks nothing of anybody. -/
theorem land_asked (b : Switchboard) (n now : Nat) : (b.land n now).1.asked = b.asked := by
  cases hf : b.flight? n with
  | none => rw [land_of_no_flight b n now hf]
  | some f =>
      cases hout : f.outcome? now with
      | none => rw [land_of_pending b n now f hf hout]
      | some out =>
          rw [land_of_due b n now f out.1 out.2 hf hout]
          exact finish_asked (b.dismiss n) f out.1 out.2

/-- Nor does giving one up. -/
theorem abandon_asked (b : Switchboard) (n : Nat) : (b.abandon n).asked = b.asked := by
  cases hf : b.flight? n with
  | none => rw [abandon_of_no_flight b n hf]
  | some f =>
      rw [abandon_of_flight b n f hf]
      simp only [asked, giveBack_trace, dismiss]

end Switchboard

end Gateway
