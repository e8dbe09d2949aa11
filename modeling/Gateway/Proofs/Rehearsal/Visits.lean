import Gateway.Rehearsal
import Mathlib.Tactic.Push

/-!
# Requests on Arrival

A request that a client sends is received if the server listens. The layers around the interface
answer some by themselves: those that only ask what is allowed, and all of them if no time at all
is left for an answer. Whatever else there is reaches the routes, and what becomes of it is either
an answer at once or an inquiry of the backends. The definition of `Rehearsal.visit` says all this
at one go; here the parts are given names and it is said when which of them applies.

## Main definitions

* `Rehearsal.received?`: The request that arrives when one is sent.
* `Rehearsal.LetsIn`: The layers around the interface let a request through to the routes.
* `Rehearsal.pending`: A request as it waits for its answer.
* `Rehearsal.takeIn`: What becomes of a request that reaches the routes.

## Theorems

* `Rehearsal.start_request`: A request that is sent is visited as it is received, or refused.
* `Rehearsal.visit_of_letsIn`, `Rehearsal.visit_of_not_letsIn`: What becomes of it then.
-/

namespace Gateway

namespace Rehearsal

/-- The request that arrives at the interface when one is sent, if the server listens. -/
def received? (r : Rehearsal) (sent : Http.Request) : Option Http.Request :=
  match r.stage with
  | none => some sent
  | some stage => if stage.listens then some sent.arrived else none

/-- The layers around the interface, if there are any, let a request through to the routes. -/
def LetsIn (r : Rehearsal) (q : Http.Request) : Prop :=
  ∀ e, r.envelope = some e → q.method ≠ "OPTIONS" ∧ 0 < e.timeout

/-- A request as it waits for its answer. -/
def pending (r : Rehearsal) (q : Http.Request) (counted : Bool) : Visit :=
  ⟨q, Uuid.numbered r.visits, counted, r.envelope.map fun e => ⟨r.now + e.timeout, r.orders⟩⟩

/-- The rehearsal with one more request, and with its time limit set if it has one. -/
def numbered (r : Rehearsal) : Rehearsal :=
  { r with visits := r.visits + 1, orders := r.orders + r.envelope.toList.length }

/-- What becomes of a request that is to be answered at once. -/
def reply (r : Rehearsal) (visit : Visit) (response : Http.Response) :
    Rehearsal × (Upshot ⊕ Errand) :=
  ((r.respond visit response).1, .inl (.response (r.respond visit response).2))

/-- What becomes of a request that is put to the backends. -/
def consult (r : Rehearsal) (inquiry : Inquiry) (visit : Visit) : Rehearsal × (Upshot ⊕ Errand) :=
  (r.inquire inquiry).1.work
    (.calls (r.inquire inquiry).2.1 (r.inquire inquiry).2.2 (some visit))

/-- What becomes of a request that reaches the routes. -/
def takeIn (r : Rehearsal) (q : Http.Request) : Rehearsal × (Upshot ⊕ Errand) :=
  match r.api.receive r.now r.board.targets r.board.metrics.exposition q with
  | (api, .error response, counted) =>
    { r.numbered with api := api }.reply (r.pending q counted) response
  | (api, .ok inquiry, counted) =>
    { r.numbered with api := api }.consult inquiry (r.pending q counted)

theorem start_request (r : Rehearsal) (sent : Http.Request) :
    r.start (.request (.ok sent)) = (r.received? sent).elim (r, .inl .refused) r.visit := by
  unfold received?
  simp only [start]
  cases r.stage with
  | none => rfl
  | some stage =>
      simp only
      split <;> rfl

theorem isLate_eq (r : Rehearsal) (q : Http.Request) (fresh : String) (counted : Bool) (t : Timer) :
    r.isLate ⟨q, fresh, counted, some t⟩ = decide (t.due ≤ r.now) := rfl

theorem visit_of_letsIn (r : Rehearsal) (q : Http.Request) (h : r.LetsIn q) :
    r.visit q = r.takeIn q := by
  unfold visit takeIn
  cases henvelope : r.envelope with
  | none =>
      simp only [henvelope, Option.bind_none, numbered, pending, Option.toList_none, List.length_nil,
        Nat.add_zero, Option.map_none]
      rcases r.api.receive r.now r.board.targets r.board.metrics.exposition q with
        ⟨api, response | inquiry, counted⟩ <;> rfl
  | some e =>
      rcases h e henvelope with ⟨hmethod, hpositive⟩
      have hlate : ¬ r.now + e.timeout ≤ r.now := by omega
      have hpreflight : e.preflight? q = none := by
        unfold Envelope.preflight?
        rw [if_neg (by simpa only [beq_iff_eq] using hmethod)]
      simp only [henvelope, Option.bind_some, hpreflight, timer, isLate_eq, decide_eq_false hlate,
        numbered, pending, Option.toList_some, List.length_singleton, Option.map_some]
      rcases r.api.receive r.now r.board.targets r.board.metrics.exposition q with
        ⟨api, response | inquiry, counted⟩ <;> rfl

/-- A request that is not let in is answered by the layers: with what is allowed, if that is what it
    asks, and else as late. -/
theorem visit_of_not_letsIn (r : Rehearsal) (q : Http.Request) (h : ¬ r.LetsIn q) :
    ∃ e timers response, r.envelope = some e
      ∧ (q.method = "OPTIONS" ∨ response = Api.addressed q (e.late q))
      ∧ r.visit q = ({ r with visits := r.visits + 1, orders := r.orders + timers },
        .inl (.response response)) := by
  unfold LetsIn at h
  push Not at h
  rcases h with ⟨e, henvelope, hout⟩
  unfold visit
  simp only [henvelope, Option.bind_some]
  by_cases hmethod : q.method = "OPTIONS"
  · have hpreflight : ∃ response, e.preflight? q = some response := by
      unfold Envelope.preflight?
      exact ⟨_, if_pos (beq_iff_eq.mpr hmethod)⟩
    rcases hpreflight with ⟨response, hpreflight⟩
    simp only [hpreflight]
    exact ⟨e, 0, _, rfl, Or.inl hmethod, rfl⟩
  · have hpreflight : e.preflight? q = none := by
      unfold Envelope.preflight?
      exact if_neg (by rwa [beq_iff_eq])
    -- The method is another one, so it is the time that is over.
    have hover := hout hmethod
    have hlate : r.now + e.timeout ≤ r.now := by omega
    simp only [hpreflight, timer, isLate_eq, decide_eq_true hlate]
    exact ⟨e, 1, _, rfl, Or.inr rfl, rfl⟩

end Rehearsal

end Gateway
