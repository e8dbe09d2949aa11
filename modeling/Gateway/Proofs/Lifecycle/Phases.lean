import Gateway.Rehearsal

/-!
# Phases and Their Order

The phases of a server have a documented order: starting, ready, draining, stopped. The controller
does not enforce it. Becoming ready and beginning to drain set the phase whatever it was, and the
controller is shared, so any owner may do either at any time. This module says exactly which
operations lead back: becoming ready once the server drains or has stopped, and being triggered once
it has stopped. All others keep the order, and so a run of operations goes forward throughout if
and only if none of its operations leads back from where it comes (`phase_forward`).

Between draining and stopped a trigger makes no difference to newcomers, who are refused in both. So
once a trigger has come the only thing that lets newcomers in again is becoming ready. A server that
begins to serve does become ready, whatever its controller went through before.

## Main definitions

* `Operation`, `Lifecycle.perform`, `Lifecycle.after`: What is done with a controller.
* `Operation.LeadsBack`: An operation that comes too late.
* `Lifecycle.stop`: What the end of a wait for an idle server does.

## Theorems

* `rank_perform_lt_iff`: Which operations lead back.
* `isDraining_perform`: Which operations let newcomers in again.
* `phase_forward`: The order of the phases through a run of operations.
* `phase_back`: Where the order is not kept.
-/

namespace Gateway

/-- What is done with a controller. -/
inductive Operation where
  /-- The server becomes ready. -/
  | setReady
  /-- The server is told to stop. -/
  | trigger
  /-- A request is counted. -/
  | enter
  /-- A request is counted no longer. -/
  | leave
  /-- Somebody who waits for an idle server looks, and stops the server if it is idle. A wait that
      takes too long looks in vain. -/
  | settle
  /-- Somebody listens to the signal. -/
  | subscribe
  /-- Somebody listens no longer. -/
  | unsubscribe
  deriving DecidableEq, Repr

/-- An operation comes too late: it takes the phase back to an earlier one. -/
def Operation.LeadsBack (l : Lifecycle) : Operation → Prop
  | .setReady => l.isDraining = true
  | .trigger => l.phase = .stopped
  | _ => False

instance (l : Lifecycle) : (op : Operation) → Decidable (op.LeadsBack l)
  | .setReady => inferInstanceAs (Decidable (l.isDraining = true))
  | .trigger => inferInstanceAs (Decidable (l.phase = .stopped))
  | .enter | .leave | .settle | .subscribe | .unsubscribe => .isFalse id

namespace Lifecycle

/-- The end of a wait for an idle server, once the server was seen to be idle. -/
def stop (l : Lifecycle) : Lifecycle :=
  { l with phase := .stopped }

/-- Does one operation. -/
def perform (l : Lifecycle) : Operation → Lifecycle
  | .setReady => l.setReady
  | .trigger => l.trigger
  | .enter => l.enter
  | .leave => l.leave.1
  | .settle => l.settle.1
  | .subscribe => l.subscribe.1
  | .unsubscribe => l.unsubscribe

/-- The controller after so many of some operations, done one after another. -/
def after (l : Lifecycle) (ops : List Operation) (i : Nat) : Lifecycle :=
  (ops.take i).foldl perform l

theorem settle_eq (l : Lifecycle) :
    l.settle = if l.inFlight = 0 then (l.stop, true) else (l, false) := rfl

/-! ## One Operation -/

theorem rank_le_rank_settle (l : Lifecycle) : l.phase.rank ≤ l.settle.1.phase.rank := by
  rw [settle_eq]
  split
  · -- Stopped is the last of the phases.
    cases h : l.phase <;> simp [stop, Phase.rank]
  · exact Nat.le_refl _

theorem rank_perform_lt_iff (l : Lifecycle) (op : Operation) :
    (l.perform op).phase.rank < l.phase.rank ↔ op.LeadsBack l := by
  cases op with
  | setReady =>
      simp only [perform, setReady, Operation.LeadsBack, isDraining]
      cases l.phase <;> decide
  | trigger =>
      simp only [perform, trigger, Operation.LeadsBack]
      cases l.phase <;> decide
  | settle =>
      have hle := rank_le_rank_settle l
      simp only [perform, Operation.LeadsBack, iff_false]
      omega
  | enter | leave | subscribe | unsubscribe =>
      -- The phase stays what it is.
      simp [perform, enter, leave, subscribe, unsubscribe, Operation.LeadsBack]

theorem rank_le_rank_perform (l : Lifecycle) (op : Operation) (h : ¬ op.LeadsBack l) :
    l.phase.rank ≤ (l.perform op).phase.rank := by
  rw [← rank_perform_lt_iff] at h
  omega

/-- While newcomers are refused, they are until the server becomes ready. -/
theorem isDraining_perform (l : Lifecycle) (op : Operation) (h : l.isDraining = true) :
    (l.perform op).isDraining = true ↔ op ≠ .setReady := by
  cases op with
  | setReady => simp [perform, setReady, isDraining, Phase.refuses]
  | trigger => simp [perform, trigger, isDraining, Phase.refuses]
  | settle =>
      simp only [perform, settle_eq, ne_eq, reduceCtorEq, not_false_eq_true, iff_true]
      split
      · rfl
      · exact h
  | enter | leave | subscribe | unsubscribe =>
      simp only [ne_eq, reduceCtorEq, not_false_eq_true, iff_true]
      exact h

/-! ## Runs of Operations -/

theorem after_succ (l : Lifecycle) (ops : List Operation) (i : Nat) (op : Operation)
    (h : ops[i]? = some op) : l.after ops (i + 1) = (l.after ops i).perform op := by
  unfold after
  rw [List.take_add_one, h, List.foldl_append]
  rfl

theorem after_succ_of_none (l : Lifecycle) (ops : List Operation) (i : Nat)
    (h : ops[i]? = none) : l.after ops (i + 1) = l.after ops i := by
  unfold after
  rw [List.take_add_one, h, Option.toList_none, List.append_nil]

/-- A run of operations never returns to an earlier phase if and only if none of its operations
    leads back from the state that it finds. -/
theorem forward_iff (l : Lifecycle) (ops : List Operation) :
    (∀ i j, i ≤ j → (l.after ops i).phase.rank ≤ (l.after ops j).phase.rank)
      ↔ ∀ (i : Nat) (op : Operation), ops[i]? = some op → ¬ op.LeadsBack (l.after ops i) := by
  constructor
  · intro hforward i op hop hback
    have hle := hforward i (i + 1) (Nat.le_succ i)
    have hlt := (rank_perform_lt_iff (l.after ops i) op).mpr hback
    rw [after_succ l ops i op hop] at hle
    omega
  · intro htimely i j hij
    -- One operation at a time, and none takes the phase back.
    induction hij with
    | refl => exact Nat.le_refl _
    | @step j _ ih =>
        refine Nat.le_trans ih ?_
        cases hop : ops[j]? with
        | none =>
            exact Nat.le_of_eq (by rw [after_succ_of_none l ops j hop])
        | some op =>
            rw [after_succ l ops j op hop]
            exact rank_le_rank_perform _ op (htimely j op hop)

/-- Once newcomers are refused, they are throughout a run if and only if the server does not become
    ready in it. -/
theorem isDraining_after_iff (l : Lifecycle) (ops : List Operation) (h : l.isDraining = true) :
    (∀ i, (l.after ops i).isDraining = true) ↔ .setReady ∉ ops := by
  constructor
  · intro hall hmem
    rcases List.mem_iff_getElem?.mp hmem with ⟨i, hop⟩
    have hnext := hall (i + 1)
    rw [after_succ l ops i _ hop] at hnext
    exact (isDraining_perform _ _ (hall i)).mp hnext rfl
  · intro hnot i
    induction i with
    | zero => exact h
    | succ i ih =>
        cases hop : ops[i]? with
        | none =>
            rw [after_succ_of_none l ops i hop]
            exact ih
        | some op =>
            rw [after_succ l ops i op hop]
            refine (isDraining_perform _ op ih).mpr fun hready => hnot ?_
            exact hready ▸ List.mem_of_getElem? hop

/-! ## The Order of the Phases -/

/-- What the owners of a controller do with it, in any order, keeps the order of the phases exactly
    as long as nobody becomes ready while the server drains or has stopped, and nobody triggers it
    once it has stopped. After a trigger newcomers are refused exactly as long as nobody becomes
    ready, and to begin to serve is to become ready, whatever the controller went through. -/
theorem phase_forward (l : Lifecycle) (ops : List Operation) :
    ((∀ i j, i ≤ j → (l.after ops i).phase.rank ≤ (l.after ops j).phase.rank)
      ↔ ∀ (i : Nat) (op : Operation), ops[i]? = some op → ¬ op.LeadsBack (l.after ops i))
      ∧ ((∀ i, (l.trigger.after ops i).isDraining = true) ↔ .setReady ∉ ops)
      ∧ ∀ r : Rehearsal, r.stage = some (.idle true) →
        (r.occur .begin).lifecycle = (r.lifecycle.perform .subscribe).perform .setReady := by
  refine ⟨forward_iff l ops, isDraining_after_iff l.trigger ops rfl, ?_⟩
  intro r hstage
  unfold Rehearsal.occur
  rw [hstage]
  rfl

/-- A controller that was triggered, of a server that is bound but does not serve yet. -/
def triggered : Rehearsal where
  board := .ofLines [] 1 5000
  api :=
    { secret := "k", probeTimeout := 2000, recorded := false, wall := 0, lifecycle := new.trigger }
  stage := some (.idle true)

/-- A shutdown in order keeps the order of the phases, and refuses newcomers from the trigger on. -/
theorem phase_forward_shutdown :
    (∀ i j, i ≤ j → (new.after [.setReady, .trigger, .settle] i).phase.rank
        ≤ (new.after [.setReady, .trigger, .settle] j).phase.rank)
      ∧ (∀ i, (new.trigger.after [.enter, .leave, .settle] i).isDraining = true)
      ∧ (triggered.occur .begin).lifecycle.phase = .ready := by
  refine ⟨(phase_forward new _).1.mpr fun i op hop => ?_,
    (phase_forward new _).2.1.mpr (by decide), ?_⟩
  · match i, hop with
    | 0, hop | 1, hop | 2, hop =>
        rw [← Option.some.inj hop]
        decide
  · rw [(phase_forward new []).2.2 triggered rfl]
    rfl

/-- Becoming ready after a trigger goes back from draining to ready, and so does a server that
    begins to serve then. -/
theorem phase_back :
    (¬ ∀ ops i j, i ≤ j → (new.after ops i).phase.rank ≤ (new.after ops j).phase.rank)
      ∧ (¬ ∀ ops i, (new.trigger.after ops i).isDraining = true)
      ∧ triggered.lifecycle.isDraining = true
      ∧ (triggered.occur .begin).lifecycle.isDraining = false := by
  refine ⟨fun hall => ?_, fun hall => ?_, rfl, rfl⟩
  · have hle := hall [.setReady, .trigger, .setReady] 2 3 (by decide)
    exact absurd hle (by decide)
  · exact absurd (hall [.setReady] 1) (by decide)

end Lifecycle

end Gateway
