import Mathlib.Logic.Relation
import Gateway.Proofs.Switchboard.Flights

/-!
# Permits Are Conserved

Calls to all targets share one set of permits. A call that is let in takes one, and from then on the
permit goes where the call goes: it is given back with the flight, whether the backend answered with
a value or an error, the time limit was passed, or whoever placed the call gave it up. So the
permits that are free and the calls that are under way add up to the number of permits there are,
and the free ones have run out exactly when that many calls are under way.

The statement is about every interleaving. Calls are placed on any line and at any time, directly or
by target, and flights are looked at or given up in any order and as often as one likes; a flight
that is not due is left alone, and a number that is not under way (any more) is nobody's. Backends
are functions that nothing is assumed of. Numbers of flights are only asked to be unused when they
are given out.

That a call which finds no permit asks nothing of any client cannot be read off its result alone, as
a backend may answer with the same error. What tells the two apart is what has reached the clients.

## Main definitions

* `Switchboard.Turn`, `Switchboard.Reaches`: What happens to calls, in any order.
* `Switchboard.Accounted`: Every flight holds one permit, and nothing else does.
* `Switchboard.Started`, `Switchboard.Released`: What a call that starts, and one that ends, does to
  the permits.

## Theorems

* `Switchboard.accounted_turn`, `Switchboard.accounted_of_reaches`: The account is kept.
* `Switchboard.started_placeOn`, `Switchboard.started_place`: How calls start.
* `Switchboard.permits_conserved`: The limit on calls, in every reachable state.
-/

namespace Gateway

namespace Switchboard

/-- What happens to calls that need a permit each. -/
inductive Turn : Switchboard → Switchboard → Prop
  /-- A call is placed on a line, through layers with the permits among them. -/
  | start (b : Switchboard) (layers : Layers) (index : Nat) (call : Call) (now order : Nat)
      (hlimited : layers.limited = true) (hfresh : b.flight? order = none) :
      Turn b (b.placeOn layers index call now order).1
  /-- A call is placed to a target. -/
  | route (b : Switchboard) (target : Target) (kind : CallKind) (pattern : String) (payload : Json)
      (timeout now order : Nat) (hfresh : b.flight? order = none) :
      Turn b (b.place target kind pattern payload timeout now order).1
  /-- A flight is looked at, and ends if it is due. -/
  | land (b : Switchboard) (n now : Nat) : Turn b (b.land n now).1
  /-- A flight is given up. -/
  | abandon (b : Switchboard) (n : Nat) : Turn b (b.abandon n)

/-- A switchboard becomes another in any number of turns. -/
def Reaches : Switchboard → Switchboard → Prop :=
  Relation.ReflTransGen Turn

/-- Every flight holds one permit, and no permit is out but for a flight. -/
structure Accounted (limit : Nat) (b : Switchboard) : Prop where
  limit_eq : b.permits.limit = limit
  taken_eq : b.permits.taken = b.flights.length
  holds : ∀ e ∈ b.flights, e.2.holdsPermit = true
  distinct : (b.flights.map Prod.fst).Nodup

/-- What a starting call does: it is turned away, with nothing touched, exactly if as many calls are
    under way as may be; otherwise its client has it, and it has settled or holds a permit. -/
def Started (limit : Nat) (b : Switchboard) (arrival : Trace) (order : Nat)
    (did : Switchboard × Placed) : Prop :=
  ((did.2 = .settled (.error .overloaded) ∧ did.1.asked = b.asked) ↔ b.flights.length = limit)
    ∧ (b.flights.length = limit → did.1.trace = b.trace ∧ did.1.lines = b.lines
      ∧ did.1.permits = b.permits ∧ did.1.flights = b.flights)
    ∧ (b.flights.length ≠ limit → did.1.asked = arrival :: b.asked
      ∧ ((∃ result, did.2 = .settled result ∧ did.1.permits.free = b.permits.free
          ∧ did.1.flights = b.flights)
        ∨ (did.2 = .flying order ∧ did.1.permits.free + 1 = b.permits.free
          ∧ ∃ f, did.1.flights = b.flights ++ [(order, f)])))

/-- What the end of a flight does: one permit is free again, and the flight is gone. -/
def Released (b : Switchboard) (n : Nat) (after : Switchboard) : Prop :=
  after.permits.free = b.permits.free + 1 ∧ after.flights.length + 1 = b.flights.length
    ∧ after.flights.Sublist b.flights ∧ after.flight? n = none

section Account

variable {limit : Nat} {b : Switchboard}

theorem Accounted.free_add (h : Accounted limit b) :
    b.permits.free + b.flights.length = limit := by
  have hle := b.permits.taken_le
  rw [← h.limit_eq, ← h.taken_eq]
  unfold Permits.free
  omega

theorem accounted_ofLines (lines : List (Target × Backend)) (limit timeout : Nat) :
    Accounted limit (ofLines lines limit timeout) := by
  refine ⟨rfl, rfl, ?_, List.nodup_nil⟩
  intro e he
  exact absurd he List.not_mem_nil

/-- Only permits and flights matter to the account. -/
theorem Accounted.congr {c : Switchboard} (h : Accounted limit b) (hpermits : c.permits = b.permits)
    (hflights : c.flights = b.flights) : Accounted limit c := by
  refine ⟨?_, ?_, ?_, ?_⟩
  · rw [hpermits, h.limit_eq]
  · rw [hpermits, hflights, h.taken_eq]
  · rw [hflights]
    exact h.holds
  · rw [hflights]
    exact h.distinct

/-- A permit that is taken for a call whose client has it is given back if the call settles at once,
    and kept with its flight otherwise. -/
theorem hand_taken (layers : Layers) (index : Nat) (line : Line) (call : Call) (now order : Nat)
    (hlimited : layers.limited = true) (hfree : b.permits.taken < b.permits.limit)
    (did : Switchboard × Placed)
    (hdid : did
      = ({ b with permits := ⟨b.permits.limit, b.permits.taken + 1, hfree⟩ } : Switchboard).hand
        layers index line call now order) :
    did.1.asked = call.arrival line.target :: b.asked
      ∧ did.1.permits.limit = b.permits.limit
      ∧ ((∃ result, did.2 = .settled result ∧ did.1.permits.taken = b.permits.taken
          ∧ did.1.flights = b.flights)
        ∨ (did.2 = .flying order ∧ did.1.permits.taken = b.permits.taken + 1
          ∧ ∃ f, f.holdsPermit = true ∧ did.1.flights = b.flights ++ [(order, f)])) := by
  have hholds : (Flight.ofCall layers line call now order).holdsPermit = true := hlimited
  rcases hand_cases { b with permits := ⟨b.permits.limit, b.permits.taken + 1, hfree⟩ } layers index
      line call now order with ⟨result, answered, _, hhand⟩ | ⟨_, hhand⟩
  · rw [hdid, hhand]
    refine ⟨?_, ?_, Or.inl ⟨result, rfl, ?_, ?_⟩⟩
    · rw [finish_asked]
      rfl
    · rw [finish_permits, if_pos hholds]
      rfl
    · rw [finish_permits, if_pos hholds]
      exact Nat.add_sub_cancel b.permits.taken 1
    · rw [finish_flights]
      rfl
  · rw [hdid, hhand]
    exact ⟨rfl, rfl, Or.inr ⟨rfl, rfl, _, hholds, rfl⟩⟩

theorem started_placeOn (h : Accounted limit b) (layers : Layers) (index : Nat) (line : Line)
    (call : Call) (now order : Nat) (hlimited : layers.limited = true)
    (hline : b.lines[index]? = some line) :
    Started limit b (call.arrival line.target) order (b.placeOn layers index call now order) := by
  have hlength := h.taken_eq
  have hlimit := h.limit_eq
  rcases placeOn_cases b layers index line call now order hlimited hline with
    ⟨hfull, hplace⟩ | ⟨hfree, hplace⟩
  · -- All permits are out, so as many calls are under way as there are permits.
    have hmany : b.flights.length = limit := by omega
    rw [hplace]
    refine ⟨⟨fun _ => hmany, fun _ => ⟨rfl, ?_⟩⟩, fun _ => ?_, fun hne => absurd hmany hne⟩
    · simp only [asked, count_trace]
    · simp only [count_trace, count_lines, count_permits, count_flights, and_self]
  · have hfew : b.flights.length ≠ limit := by omega
    rcases hand_taken layers index line call now order hlimited hfree _ hplace with
      ⟨hasked, hsame, hends⟩
    refine ⟨⟨fun hrefused => ?_, fun hc => absurd hc hfew⟩, fun hc => absurd hc hfew, fun _ => ?_⟩
    · -- A call that a client has shows in what the clients were asked.
      have hshort := congrArg List.length (hasked.symm.trans hrefused.2)
      rw [List.length_cons] at hshort
      omega
    · refine ⟨hasked, ?_⟩
      unfold Permits.free
      rw [hsame]
      rcases hends with ⟨result, hresult, htaken, hflights⟩ | ⟨hflying, htaken, f, _, hflights⟩
      · left
        rw [htaken]
        exact ⟨result, hresult, rfl, hflights⟩
      · right
        rw [htaken]
        exact ⟨hflying, by omega, f, hflights⟩

theorem accounted_placeOn (h : Accounted limit b) (layers : Layers) (index : Nat) (call : Call)
    (now order : Nat) (hlimited : layers.limited = true) (hfresh : b.flight? order = none) :
    Accounted limit (b.placeOn layers index call now order).1 := by
  cases hline : b.lines[index]? with
  | none =>
      rw [placeOn_of_no_line b layers index call now order hline]
      exact h
  | some line =>
      rcases placeOn_cases b layers index line call now order hlimited hline with
        ⟨_, hplace⟩ | ⟨hfree, hplace⟩
      · rw [hplace]
        exact h.congr (count_permits b _ _ _) (count_flights b _ _ _)
      · rcases hand_taken layers index line call now order hlimited hfree _ hplace with
          ⟨_, hsame, ⟨_, _, htaken, hflights⟩ | ⟨_, htaken, f, hholds, hflights⟩⟩
        · refine ⟨hsame.trans h.limit_eq, ?_, ?_, ?_⟩
          · rw [htaken, hflights, h.taken_eq]
          · rw [hflights]
            exact h.holds
          · rw [hflights]
            exact h.distinct
        · refine ⟨hsame.trans h.limit_eq, ?_, ?_, ?_⟩
          · rw [htaken, hflights, h.taken_eq, List.length_append, List.length_singleton]
          · intro e he
            rw [hflights] at he
            rcases List.mem_append.mp he with he | he
            · exact h.holds e he
            · rw [List.mem_singleton.mp he]
              exact hholds
          · -- The number of the new flight was not in use.
            rw [hflights, List.map_append, List.nodup_append]
            refine ⟨h.distinct, List.pairwise_singleton _ _, ?_⟩
            intro m hm n hn hmn
            rw [hmn, List.mem_singleton.mp hn] at hm
            exact (flight?_eq_none_iff b order).mp hfresh hm

theorem accounted_place (h : Accounted limit b) (target : Target) (kind : CallKind)
    (pattern : String) (payload : Json) (timeout now order : Nat)
    (hfresh : b.flight? order = none) :
    Accounted limit (b.place target kind pattern payload timeout now order).1 := by
  rcases place_cases b target kind pattern payload timeout now order with
    ⟨_, hplace⟩ | ⟨index, line, _, _, hplace⟩
  · rw [hplace]
    exact h
  · -- The number of the call is no matter of the account.
    have hnumbered : Accounted limit { b with nextCall := b.nextCall + 1 } := h.congr rfl rfl
    rw [hplace]
    exact accounted_placeOn hnumbered .full index _ now order rfl hfresh

/-- A call to a target that has a line starts as a call on that line. -/
theorem started_place (h : Accounted limit b) (target : Target) (kind : CallKind)
    (pattern : String) (payload : Json) (timeout now order : Nat) (htarget : target ∈ b.targets) :
    Started limit b (.reached kind target pattern payload) order
      (b.place target kind pattern payload timeout now order) := by
  rcases place_cases b target kind pattern payload timeout now order with
    ⟨hnone, _⟩ | ⟨index, line, hline, hsame, hplace⟩
  · exact absurd htarget hnone
  · have hnumbered : Accounted limit { b with nextCall := b.nextCall + 1 } := h.congr rfl rfl
    rw [hplace, ← hsame]
    exact started_placeOn hnumbered .full index line _ now order rfl hline

/-- A flight that is taken away gives its permit back. -/
theorem accounted_released (h : Accounted limit b) (n : Nat) (f : Flight) (after : Switchboard)
    (hf : b.flight? n = some f) (hpermits : after.permits = b.permits.release)
    (hflights : after.flights = (b.dismiss n).flights) :
    Accounted limit after ∧ Released b n after := by
  rcases dismiss_flights b n f hf h.distinct with ⟨hlength, hsublist, hgone⟩
  -- There is a flight, so a permit is out, and releasing does not stop at zero.
  have htaken : after.permits.taken + 1 = b.permits.taken := by
    have hfew := h.taken_eq
    rw [hpermits]
    simp only [Permits.release]
    omega
  have hlimit : after.permits.limit = b.permits.limit := by
    rw [hpermits]
    rfl
  have htotal := h.taken_eq
  refine ⟨⟨hlimit.trans h.limit_eq, ?_, ?_, ?_⟩, ?_, ?_, ?_, ?_⟩
  · rw [hflights]
    omega
  · intro e he
    rw [hflights] at he
    exact h.holds e (hsublist.subset he)
  · rw [hflights]
    exact h.distinct.sublist (hsublist.map Prod.fst)
  · have hle := b.permits.taken_le
    unfold Permits.free
    omega
  · rw [hflights]
    exact hlength
  · rw [hflights]
    exact hsublist
  · rw [flight?_eq_none_iff] at hgone ⊢
    rw [hflights]
    exact hgone

theorem Accounted.holds_of_flight (h : Accounted limit b) {n : Nat} {f : Flight}
    (hf : b.flight? n = some f) : f.holdsPermit = true :=
  h.holds (n, f) (mem_of_flight? b n f hf)

theorem released_land (h : Accounted limit b) (n now : Nat) (f : Flight) (result : CallResult)
    (answered : Bool) (hf : b.flight? n = some f)
    (hout : f.outcome? now = some (result, answered)) :
    Accounted limit (b.land n now).1 ∧ Released b n (b.land n now).1 := by
  rw [land_of_due b n now f result answered hf hout]
  refine accounted_released h n f _ hf ?_ ?_
  · rw [finish_permits, if_pos (h.holds_of_flight hf)]
    rfl
  · rw [finish_flights]

theorem released_abandon (h : Accounted limit b) (n : Nat) (f : Flight)
    (hf : b.flight? n = some f) :
    Accounted limit (b.abandon n) ∧ Released b n (b.abandon n) := by
  rw [abandon_of_flight b n f hf]
  refine accounted_released h n f _ hf ?_ ?_
  · rw [giveBack_permits, if_pos (h.holds_of_flight hf)]
    rfl
  · rw [giveBack_flights]

theorem accounted_turn {c : Switchboard} (h : Accounted limit b) (hturn : Turn b c) :
    Accounted limit c := by
  cases hturn with
  | start layers index call now order hlimited hfresh =>
      exact accounted_placeOn h layers index call now order hlimited hfresh
  | route target kind pattern payload timeout now order hfresh =>
      exact accounted_place h target kind pattern payload timeout now order hfresh
  | land n now =>
      cases hf : b.flight? n with
      | none =>
          rw [land_of_no_flight b n now hf]
          exact h
      | some f =>
          cases hout : f.outcome? now with
          | none =>
              rw [land_of_pending b n now f hf hout]
              exact h
          | some out => exact (released_land h n now f out.1 out.2 hf hout).1
  | abandon n =>
      cases hf : b.flight? n with
      | none =>
          rw [abandon_of_no_flight b n hf]
          exact h
      | some f => exact (released_abandon h n f hf).1

theorem accounted_of_reaches {c : Switchboard} (h : Accounted limit b) (hreaches : Reaches b c) :
    Accounted limit c := by
  induction hreaches with
  | refl => exact h
  | tail _ hturn ih => exact accounted_turn ih hturn

end Account

/-- In every state that calls can lead to, the free permits and the calls under way add up to the
    limit. A starting call is turned away exactly when as many are under way as may be, and then
    nothing is touched; every other one reaches its client once. A flight gives back one permit at
    the moment it ends, be it answered, too late or given up, and none before or after. -/
theorem permits_conserved (lines : List (Target × Backend)) (limit timeout : Nat) (b : Switchboard)
    (h : Reaches (ofLines lines limit timeout) b) :
    b.permits.free + b.flights.length = limit
      ∧ (∀ layers index line call now order, layers.limited = true →
        b.lines[index]? = some line →
        Started limit b (call.arrival line.target) order
          (b.placeOn layers index call now order))
      ∧ (∀ target kind pattern payload timeout now order, target ∈ b.targets →
        Started limit b (.reached kind target pattern payload) order
          (b.place target kind pattern payload timeout now order))
      ∧ (∀ n f, b.flight? n = some f →
        (∀ now result answered, f.outcome? now = some (result, answered) →
          (b.land n now).2 = some result ∧ Released b n (b.land n now).1)
        ∧ (∀ now, f.outcome? now = none → b.land n now = (b, none))
        ∧ Released b n (b.abandon n))
      ∧ ∀ n, b.flight? n = none → (∀ now, b.land n now = (b, none)) ∧ b.abandon n = b := by
  -- The account is right in the state that was reached; the rest is about its next turn.
  have haccount := accounted_of_reaches (accounted_ofLines lines limit timeout) h
  refine ⟨haccount.free_add, ?_, ?_, fun n f hf => ⟨?_, ?_, ?_⟩, fun n hn => ⟨?_, ?_⟩⟩
  · intro layers index line call now order hlimited hline
    exact started_placeOn haccount layers index line call now order hlimited hline
  · intro target kind pattern payload timeout now order htarget
    exact started_place haccount target kind pattern payload timeout now order htarget
  · intro now result answered hout
    refine ⟨?_, (released_land haccount n now f result answered hf hout).2⟩
    rw [land_of_due b n now f result answered hf hout]
  · intro now hout
    exact land_of_pending b n now f hf hout
  · exact (released_abandon haccount n f hf).2
  · intro now
    exact land_of_no_flight b n now hn
  · exact abandon_of_no_flight b n hn

/-- Two targets that share one permit, where a call to the first takes a while. -/
def onePermit : Switchboard :=
  ofLines [(.notification, .ofScript [⟨some 200, some (.ok .null)⟩]), (.inventory, .echo)] 1 5000

theorem permits_conserved_one_permit : ∃ b f, Reaches onePermit b ∧ b.flight? 0 = some f
    ∧ b.permits.free + b.flights.length = 1
    ∧ (b.place .inventory .request "updateInventory" .null 5000 20 2).2
      = .settled (.error .overloaded)
    ∧ (b.land 0 200).2 = some (.ok .null) ∧ Released b 0 (b.land 0 200).1
    ∧ Released b 0 (b.abandon 0) := by
  have hreaches : Reaches onePermit
      (onePermit.place .notification .request "createNotification" .null 5000 0 0).1 :=
    Relation.ReflTransGen.single (Turn.route onePermit .notification .request "createNotification"
      .null 5000 0 0 rfl)
  rcases permits_conserved _ 1 5000 _ hreaches with ⟨hsum, _, hroute, hflight, _⟩
  rcases hroute .inventory .request "updateInventory" .null 5000 20 2
    (List.mem_cons_of_mem _ List.mem_cons_self) with ⟨hrefused, _, _⟩
  rcases hflight 0 _ rfl with ⟨hland, _, habandon⟩
  rcases hland 200 (.ok .null) true rfl with ⟨hresult, hreleased⟩
  exact ⟨_, _, hreaches, rfl, hsum, (hrefused.mpr rfl).1, hresult, hreleased, habandon⟩

end Switchboard

end Gateway
