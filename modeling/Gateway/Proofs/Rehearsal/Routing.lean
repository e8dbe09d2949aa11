import Gateway.Proofs.Rehearsal.FanOut
import Gateway.Proofs.Switchboard.Counting

/-!
# Routing Adds Nothing

There are a number of ways to call one target: as a request or as an event, with a time limit of its
own or that of the gateway, through the router or past it, with the target named in the call or in
the way. They come to the same. The call is looked up in the registry, and the client of its target
has it, once and as it was made, if a permit is free. What the client answers is what the caller
gets, as long as it comes in time.

Two things may keep a call from its client. If no permit is free it is turned away, and if its
target is not registered there is nobody to have it. Neither leaves a trace at any client, and the
second none at all: the switchboard is the same before and after.

Nothing is remembered of a call, so the same call made again reaches the client again. This is an
induction over the calls, each of which is made in the state that the ones before it have left
(`asked_makes`). What else runs in the meantime makes no difference, since it asks nobody for
anything.

## Main definitions

* `Entrance`: The ways to call one target.
* `Switchboard.log`: What a client was asked.
* `Rehearsal.ComesTo`: What a command asks of the clients, and what it comes to.
* `Rehearsal.makes`, `Rehearsal.Unshed`: The same call made again and again, with a permit for each.

## Theorems

* `Rehearsal.comesTo_of_foreseen`: What is foreseen at the start is what a call comes to.
* `Rehearsal.start_unregistered`, `Rehearsal.start_shed`, `Rehearsal.start_dealt`: How a call
  starts.
* `Rehearsal.asked_makes`: Each of many calls is a call.
* `Rehearsal.routing_transparent`: Routing asks one client once and hands its answer on.
-/

namespace Gateway

/-- The ways to call one target. -/
inductive Entrance where
  /-- A request. -/
  | send (target : Target)
  /-- A request with a time limit of its own. -/
  | sendWithin (target : Target) (timeout : Nat)
  /-- An event. -/
  | emit (target : Target)
  /-- An event with a time limit of its own. -/
  | emitWithin (target : Target) (timeout : Nat)
  /-- A request through the router. -/
  | route (target : Target)
  /-- A request through the router with a time limit of its own. -/
  | routeWithin (target : Target) (timeout : Nat)
  /-- The router's way to the notifications. -/
  | notification
  /-- The router's way to the inventory. -/
  | inventory
  /-- The router's way to the predictions. -/
  | aiMl

namespace Entrance

/-- How the client is called. -/
def kind : Entrance → CallKind
  | emit _ | emitWithin _ _ => .event
  | send _ | sendWithin _ _ | route _ | routeWithin _ _ | notification | inventory | aiMl =>
    .request

/-- Whose client is called. -/
def target : Entrance → Target
  | send t | sendWithin t _ | emit t | emitWithin t _ | route t | routeWithin t _ => t
  | notification => .notification
  | inventory => .inventory
  | aiMl => .aiMl

/-- The time limit, if the call has one of its own. -/
def timeout : Entrance → Option Nat
  | sendWithin _ ms | emitWithin _ ms | routeWithin _ ms => some ms
  | send _ | emit _ | route _ | notification | inventory | aiMl => none

/-- The command that makes the call. -/
def command (e : Entrance) (pattern : String) (payload : Json) : Command :=
  .place e.kind e.target pattern payload e.timeout

/-- What the client is asked. -/
def arrival (e : Entrance) (pattern : String) (payload : Json) : Trace :=
  .reached e.kind e.target pattern payload

/-- A step that makes the call: it is waited for, or runs in the background under a name. -/
def step (e : Entrance) (pattern : String) (payload : Json) : Option String → Step
  | none => .perform (e.command pattern payload)
  | some name => .background name (e.command pattern payload)

end Entrance

/-- The client at which something was seen. -/
def Trace.client : Trace → Target
  | .reached _ t _ _ | .finished t | .closed t => t

namespace Switchboard

/-- What the client of a target was asked, latest first. -/
def log (b : Switchboard) (t : Target) : List Trace :=
  b.asked.filter fun line => line.client == t

/-- What is asked of one client is not in the log of another. -/
theorem log_cons_ne (b c : Switchboard) (line : Trace) (other : Target)
    (hasked : c.asked = line :: b.asked) (hother : line.client ≠ other) :
    c.log other = b.log other := by
  have hnot : ¬ (line.client == other) = true := fun hc => hother (beq_iff_eq.mp hc)
  unfold log
  rw [hasked]
  exact List.filter_cons_of_neg hnot

theorem log_congr (b c : Switchboard) (other : Target) (hasked : c.asked = b.asked) :
    c.log other = b.log other := by
  unfold log
  rw [hasked]

end Switchboard

namespace Rehearsal

/-- How long a call may take that is made now. -/
def limitFor (r : Rehearsal) (e : Entrance) : Nat :=
  e.timeout.getD r.board.defaultTimeout

/-- The call that is made now, as the client gets it. -/
def callFor (r : Rehearsal) (e : Entrance) (pattern : String) (payload : Json) : Call :=
  ⟨⟨r.board.nextCall, e.target, e.kind, r.limitFor e⟩, pattern, payload⟩

/-- What a command asks of the clients, and what it comes to, whether it is waited for or runs in
    the background. -/
structure ComesTo (r : Rehearsal) (c : Command) (arrivals : List Trace) (result : CallResult) :
    Prop where
  /-- It is waited for. -/
  performed : (r.step (.perform c)).2 = .call result
  /-- Nobody else is asked for anything while it is. -/
  asked : (r.step (.perform c)).1.board.asked = arrivals ++ r.board.asked
  /-- It runs in the background, and whatever happens then, it ends in no other way. -/
  ended (name : Option String) (t : Rehearsal) (h : OnTime (r.enlist name c) t) :
    ∃ a, t.activities[r.activities.length]? = some a ∧
      ∀ outcome, a.progress = .ended outcome → outcome = .call result
  /-- And the same is asked when it is started so. -/
  launched (name : String) :
    (r.step (.background name c)).1.board.asked = arrivals ++ r.board.asked

/-- The same call made again and again, waited for or not. -/
def makes (e : Entrance) (pattern : String) (payload : Json) (r : Rehearsal) :
    List (Option String) → Rehearsal
  | [] => r
  | how :: rest => makes e pattern payload (r.step (e.step pattern payload how)).1 rest

/-- Each time that the call is made a permit is free. -/
def Unshed (e : Entrance) (pattern : String) (payload : Json) (r : Rehearsal) :
    List (Option String) → Prop
  | [] => True
  | how :: rest =>
    r.board.permits.free ≠ 0 ∧ Unshed e pattern payload (r.step (e.step pattern payload how)).1 rest

section Registries

variable {registry : Registry} {r s : Rehearsal}

theorem Wired.reaches (h : Wired registry r) (hreaches : Reaches r s) : Wired registry s := by
  rcases h with ⟨first, clients, maxCalls, timeout, hfresh, hboard, hfirst⟩
  exact ⟨first, clients, maxCalls, timeout, hfresh, hboard, hfirst.trans hreaches⟩

/-! ## From the Start to the End -/

/-- A call that is started so that its outcome is foreseen comes to that. -/
theorem comesTo_of_foreseen (target : Target) (hr : Reachable r) {c : Command}
    {arrivals : List Trace} {result : CallResult}
    (h : Foreseen .single [⟨target, result⟩] (r.start c).1 (progressOf (r.start c).2))
    (hasked : (r.start c).1.board.asked = arrivals ++ r.board.asked) :
    ComesTo r c arrivals result := by
  rcases foreseen_performed hr h with ⟨hperformed, hlater⟩
  refine ⟨hperformed, hlater.trans hasked, fun name t honTime => ?_, fun name => ?_⟩
  · rcases foreseen_enlist hr name h honTime with ⟨a, ha, hforeseen⟩
    refine ⟨a, ha, fun outcome hended => ?_⟩
    rw [hended] at hforeseen
    cases hforeseen with
    | ended => rfl
  · -- What is started settles with everything that was woken, and that asks nobody.
    have hsettled := (course_unforced.settle (r.enlist (some name) c)).asked
    rw [← launch_eq] at hsettled
    exact hsettled.trans hasked

/-! ## How a Call Starts -/

section OneCall

variable (e : Entrance) (pattern : String) (payload : Json)

theorem start_unregistered (r : Rehearsal) (htarget : e.target ∉ r.board.targets) :
    r.start (e.command pattern payload)
      = ({ r with orders := r.orders + 2 },
        .inl (.call (.error (.unknownTarget e.target.name)))) := by
  have hplace := r.board.place_of_unregistered e.target e.kind pattern payload (r.limitFor e) r.now
    r.orders htarget
  unfold limitFor at hplace
  simp only [Entrance.command, start, place, hplace]
  rfl

theorem exists_line (h : Wired registry r) (htarget : e.target ∈ registry.targets) :
    ∃ (index : Nat) (line : Line), r.board.lines[index]? = some line
      ∧ line.target = e.target := by
  rw [← h.targets] at htarget
  rcases List.mem_map.mp htarget with ⟨line, hmem, hsame⟩
  rcases List.mem_iff_getElem?.mp hmem with ⟨index, hline⟩
  exact ⟨index, line, hline, hsame⟩

/-- A call for which no permit is free comes back at once. It has used up a number and is
    counted. -/
theorem start_shed (h : Wired registry r) (htarget : e.target ∈ registry.targets)
    (hfree : r.board.permits.free = 0) :
    ∃ metrics, r.start (e.command pattern payload)
      = ({ r with
          board := { r.board with nextCall := r.board.nextCall + 1, metrics := metrics }
          orders := r.orders + 2 },
        .inl (.call (.error .overloaded))) := by
  rcases exists_line e h htarget with ⟨index, line, hline, hsame⟩
  rcases r.board.place_of_none_free index line hline h.distinct e.kind pattern payload
    (r.limitFor e) r.now r.orders hfree with ⟨metrics, hplace⟩
  rw [hsame] at hplace
  unfold limitFor at hplace
  refine ⟨metrics, ?_⟩
  simp only [Entrance.command, start, place, hplace]
  rfl

/-- A call that was just placed and has not settled has nothing to do yet. -/
theorem work_pending (r : Rehearsal) (target : Target) (n : Nat) (f : Flight)
    (hf : r.board.flight? n = some f) (hout : f.outcome? r.now = none) :
    r.work (.calls [⟨target, .flying n⟩] .single none)
      = (r, .inr (.calls [⟨target, .flying n⟩] .single none)) := by
  simp only [work, landLegs, Switchboard.land_of_pending r.board n r.now f hf hout]
  rfl

/-- A call for which a permit is free is dealt with by the client of its target. It has settled, or
    it is under way under the next number. -/
theorem start_dealt (h : Wired registry r) (hfree : r.board.permits.free ≠ 0) (index : Nat)
    (line : Line) (hline : r.board.lines[index]? = some line) (hsame : line.target = e.target) :
    ∃ did, Switchboard.Dealt r.board index line (r.callFor e pattern payload) r.now r.orders did
      ∧ (r.start (e.command pattern payload)).1
        = { r with board := did.1, orders := r.orders + 2 }
      ∧ ((r.start (e.command pattern payload)).2
          = .inl (.call ((line.answer (r.callFor e pattern payload)).within e.target
            (r.limitFor e)))
          ∧ (line.answer (r.callFor e pattern payload)).isPrompt (r.limitFor e) = true
        ∨ (r.start (e.command pattern payload)).2
            = .inr (.calls [⟨e.target, .flying r.orders⟩] .single none)
          ∧ (line.answer (r.callFor e pattern payload)).isPrompt (r.limitFor e) = false
          ∧ did.1.flight? r.orders
            = some (.ofCall .full line (r.callFor e pattern payload) r.now r.orders)) := by
  have hdealt := r.board.place_of_free index line hline h.distinct e.kind pattern payload
    (r.limitFor e) r.now r.orders hfree
  have hstart : r.start (e.command pattern payload)
      = ({ r with
          board := (r.board.place e.target e.kind pattern payload (r.limitFor e) r.now r.orders).1
          orders := r.orders + 2 } : Rehearsal).work
        (.calls [⟨e.target, (r.board.place e.target e.kind pattern payload (r.limitFor e) r.now
          r.orders).2⟩] .single none) := rfl
  rw [hsame] at hdealt
  rw [hstart]
  generalize r.board.place e.target e.kind pattern payload (r.limitFor e) r.now r.orders = did
    at hdealt
  refine ⟨did, hdealt, ?_⟩
  rcases did with ⟨board, placed⟩
  rcases hdealt.placed with ⟨hsettled, hprompt, _⟩ | ⟨hflying, hprompt, hflights, _⟩
  · simp only at hsettled
    subst hsettled
    exact ⟨rfl, Or.inl ⟨rfl, hprompt⟩⟩
  · simp only at hflying
    subst hflying
    have hbelow := (orderly_of_reachable r h.reachable).flights
    have hf : board.flight? r.orders
        = some (Flight.ofCall .full line (r.callFor e pattern payload) r.now r.orders) :=
      Switchboard.flight?_append_self r.board board _ r.orders
        (fun entry hentry => Nat.ne_of_lt (hbelow entry hentry)) hflights
    have hout := (Flight.ofCall_pending_iff line (r.callFor e pattern payload) r.now
      r.orders).mpr hprompt
    rw [work_pending { r with board := board, orders := r.orders + 2 } e.target r.orders _ hf hout]
    exact ⟨rfl, Or.inr ⟨rfl, hprompt, hf⟩⟩

/-! ## What a Call Comes To -/

theorem comesTo_unregistered (h : Wired registry r) (htarget : e.target ∉ registry.targets) :
    ComesTo r (e.command pattern payload) [] (.error (.unknownTarget e.target.name)) := by
  have hstart := start_unregistered e pattern payload r (h.targets ▸ htarget)
  refine comesTo_of_foreseen e.target h.reachable ?_ ?_
  · rw [hstart]
    exact .ended
  · rw [hstart]
    rfl

theorem comesTo_shed (h : Wired registry r) (htarget : e.target ∈ registry.targets)
    (hfree : r.board.permits.free = 0) :
    ComesTo r (e.command pattern payload) [] (.error .overloaded) := by
  rcases start_shed e pattern payload h htarget hfree with ⟨metrics, hstart⟩
  refine comesTo_of_foreseen e.target h.reachable ?_ ?_
  · rw [hstart]
    exact .ended
  · rw [hstart]
    rfl

theorem comesTo_dealt (h : Wired registry r) (hfree : r.board.permits.free ≠ 0) (index : Nat)
    (line : Line) (hline : r.board.lines[index]? = some line) (hsame : line.target = e.target) :
    ComesTo r (e.command pattern payload) [e.arrival pattern payload]
      ((line.answer (r.callFor e pattern payload)).within e.target (r.limitFor e)) := by
  rcases start_dealt e pattern payload h hfree index line hline hsame with
    ⟨did, hdealt, hboard, hplaced⟩
  refine comesTo_of_foreseen e.target h.reachable ?_ ?_
  · rw [hboard]
    rcases hplaced with ⟨hsettled, _⟩ | ⟨hflying, _, hf⟩
    · rw [hsettled]
      exact .ended
    · rw [hflying]
      exact .waits _ (destined_ofCall _ line (r.callFor e pattern payload) r.orders hf) rfl
  · rw [hboard, hdealt.asked, Call.arrival, hsame]
    rfl

/-- A call that is not turned away asks its client once. -/
theorem asked_step (h : Wired registry r) (htarget : e.target ∈ registry.targets)
    (hfree : r.board.permits.free ≠ 0) (how : Option String) :
    (r.step (e.step pattern payload how)).1.board.asked
      = e.arrival pattern payload :: r.board.asked := by
  rcases exists_line e h htarget with ⟨index, line, hline, hsame⟩
  have hcomes := comesTo_dealt e pattern payload h hfree index line hline hsame
  cases how with
  | none => exact hcomes.asked
  | some name => exact hcomes.launched name

/-- Each of many calls asks the client, as no answer is kept for the next. -/
theorem asked_makes (h : Wired registry r) (htarget : e.target ∈ registry.targets)
    (hows : List (Option String)) (hunshed : Unshed e pattern payload r hows) :
    (makes e pattern payload r hows).board.asked
      = List.replicate hows.length (e.arrival pattern payload) ++ r.board.asked := by
  induction hows generalizing r with
  | nil => rfl
  | cons how rest ih =>
      have hfirst := asked_step e pattern payload h htarget hunshed.1 how
      have hrest := ih (h.reaches (step_reaches r (e.step pattern payload how))) hunshed.2
      rw [makes, hrest, hfirst, List.length_cons, List.replicate_succ', List.append_assoc,
        List.singleton_append]

/-- Whatever becomes of a call, nobody is asked but the client of its target. -/
theorem log_step (h : Wired registry r) (how : Option String) (other : Target)
    (hother : e.target ≠ other) :
    (r.step (e.step pattern payload how)).1.board.log other = r.board.log other := by
  by_cases htarget : e.target ∈ registry.targets
  · by_cases hfree : r.board.permits.free = 0
    · have hcomes := comesTo_shed e pattern payload h htarget hfree
      cases how with
      | none => exact Switchboard.log_congr _ _ other hcomes.asked
      | some name => exact Switchboard.log_congr _ _ other (hcomes.launched name)
    · have hasked := asked_step e pattern payload h htarget hfree how
      exact Switchboard.log_cons_ne _ _ (e.arrival pattern payload) other hasked hother
  · have hcomes := comesTo_unregistered e pattern payload h htarget
    cases how with
    | none => exact Switchboard.log_congr _ _ other hcomes.asked
    | some name => exact Switchboard.log_congr _ _ other (hcomes.launched name)

end OneCall

/-- Routing adds nothing to a call and takes nothing away. Whatever the registry, the clients and
    the state the gateway is in, and whichever way the call is made,

    * a call to a registered target for which a permit is free asks the client of the target once,
      as it was made, and comes to what that client answers, or to a timeout if the answer takes
      longer than the call may; no other line is touched,
    * a call for which no permit is free comes back as one too many, and has touched no line and no
      permit and nothing that was seen at a client,
    * a call to a target that is not registered comes back with the name of the target, and the
      switchboard is as it was, with its permits and all that is counted,
    * in none of these cases is another client asked for anything, and
    * a call that is made again and again asks the client each time, if a permit is free each
      time. -/
theorem routing_transparent (registry : Registry) (r : Rehearsal) (h : Wired registry r)
    (e : Entrance) (pattern : String) (payload : Json) :
    (e.target ∈ registry.targets → r.board.permits.free ≠ 0 →
        ∃ (index : Nat) (line : Line), r.board.lines[index]? = some line ∧ line.target = e.target
          ∧ ComesTo r (e.command pattern payload) [.reached e.kind e.target pattern payload]
            ((line.answer (r.callFor e pattern payload)).within e.target (r.limitFor e))
          ∧ (r.start (e.command pattern payload)).1.board.lines
            = r.board.lines.set index { line with served := line.served + 1 })
      ∧ (e.target ∈ registry.targets → r.board.permits.free = 0 →
        ComesTo r (e.command pattern payload) [] (.error .overloaded)
          ∧ (r.start (e.command pattern payload)).1.board.lines = r.board.lines
          ∧ (r.start (e.command pattern payload)).1.board.permits = r.board.permits
          ∧ (r.start (e.command pattern payload)).1.board.trace = r.board.trace)
      ∧ (e.target ∉ registry.targets →
        ComesTo r (e.command pattern payload) [] (.error (.unknownTarget e.target.name))
          ∧ (r.start (e.command pattern payload)).1.board = r.board)
      ∧ (∀ how other, e.target ≠ other →
        (r.step (e.step pattern payload how)).1.board.log other = r.board.log other)
      ∧ (e.target ∈ registry.targets → ∀ hows, Unshed e pattern payload r hows →
        (makes e pattern payload r hows).board.asked
          = List.replicate hows.length (.reached e.kind e.target pattern payload)
            ++ r.board.asked) := by
  refine ⟨fun htarget hfree => ?_, fun htarget hfree => ?_, fun htarget => ?_,
    fun how other hother => log_step e pattern payload h how other hother,
    fun htarget hows hunshed => asked_makes e pattern payload h htarget hows hunshed⟩
  · rcases exists_line e h htarget with ⟨index, line, hline, hsame⟩
    rcases start_dealt e pattern payload h hfree index line hline hsame with
      ⟨did, hdealt, hboard, _⟩
    refine ⟨index, line, hline, hsame,
      comesTo_dealt e pattern payload h hfree index line hline hsame, ?_⟩
    rw [hboard]
    exact hdealt.lines
  · rcases start_shed e pattern payload h htarget hfree with ⟨metrics, hstart⟩
    refine ⟨comesTo_shed e pattern payload h htarget hfree, ?_⟩
    rw [hstart]
    exact ⟨rfl, rfl, rfl⟩
  · refine ⟨comesTo_unregistered e pattern payload h htarget, ?_⟩
    rw [start_unregistered e pattern payload r (h.targets ▸ htarget)]

/-- Three calls to the client that is overloaded itself, two of them in the background, and one to a
    target that `swamped` has no client for. -/
theorem routing_transparent_swamped :
    Wired ⟨[⟨.inventory, "localhost", 3002⟩], by decide⟩ swamped
      ∧ (swamped.step (.perform (Entrance.command .inventory "updateInventory" .null))).2
        = .call (.error .overloaded)
      ∧ (swamped.step (.perform (Entrance.command .aiMl "getPrediction" .null))).2
        = .call (.error (.unknownTarget "aiMl"))
      ∧ (makes .inventory "updateInventory" .null swamped [some "a", none, some "b"]).board.asked
        = List.replicate 3 (.reached .request .inventory "updateInventory" .null) := by
  have hwired : Wired ⟨[⟨.inventory, "localhost", 3002⟩], by decide⟩ swamped :=
    ⟨swamped, [(.inventory, .ofScript [⟨none, some (.error .overloaded)⟩])], 8, 100,
      ⟨rfl, rfl, rfl, rfl⟩, rfl, Relation.ReflTransGen.refl⟩
  have hknown : Entrance.inventory.target
      ∈ (⟨[⟨.inventory, "localhost", 3002⟩], by decide⟩ : Registry).targets :=
    List.mem_singleton_self _
  rcases routing_transparent _ swamped hwired .inventory "updateInventory" .null with
    ⟨hserved, _, _, _, hmany⟩
  rcases routing_transparent _ swamped hwired .aiMl "getPrediction" .null with
    ⟨_, _, hunknown, _, _⟩
  rcases hserved hknown (by decide) with ⟨index, line, hline, _, hcomes, _⟩
  have hsame : line = ⟨.inventory, .ofScript [⟨none, some (.error .overloaded)⟩], 0⟩ := by
    cases index with
    | zero => exact (Option.some.inj hline).symm
    | succ index => exact absurd hline (Option.some_ne_none line).symm
  subst hsame
  exact ⟨hwired, hcomes.performed, (hunknown (by decide)).1.performed,
    hmany hknown [some "a", none, some "b"] ⟨by decide, by decide, by decide, trivial⟩⟩

end Registries

end Rehearsal

end Gateway
