import Gateway.Exchange
import Mathlib.Data.List.Basic
import Mathlib.Logic.Relation

/-!
# The Accounts of an Exchange

Whatever happens in an exchange comes down to three things as far as its calls and permits go: a
call ends, a backend has got its packet, or neither is touched (`Move`). Only the beginning of a
call is more, since it adds one. So the accounts are kept in two places: a permit is taken when a
call is let in, and it is given back in the same step in which the call ends, which it does once.
The permits that are out are those of the calls that run, never more and never fewer.

An end is for good. The first result of a call is its result, and whatever comes for the call later
finds it ended.

## Main definitions

* `Ongoing.ended`: A call with its result.
* `Exchange.Move`, `Exchange.Moves`: What is done to calls and permits.
* `Exchange.Turn`, `Exchange.Reachable`: What can happen in an exchange.
* `Exchange.Accounted`: The permits that are out are those of calls that run.
* `Ongoing.Follows`: How a call stands later.

## Theorems

* `Exchange.settle_cases`: A call ends once.
* `Exchange.accounted_moves`, `Exchange.follows_moves`: What moves keep.
* `Exchange.turn_account`: What a turn keeps.
* `Exchange.accounted_of_reachable`: The accounts are right at all times.
-/

namespace Gateway

namespace Ongoing

/-- A call with its result. Its permit, if it held one, is back. -/
def ended (o : Ongoing) (result : CallResult) : Ongoing :=
  { o with result := some result, holdsPermit := false }

/-- How a call stands later: it is the same call, and if it had ended it has the same result. -/
structure Follows (o p : Ongoing) : Prop where
  what : p.what = o.what
  id : p.id = o.id
  due : p.due = o.due
  ended : o.result.isSome → p.result = o.result

theorem Follows.refl (o : Ongoing) : Follows o o :=
  ⟨rfl, rfl, rfl, fun _ => rfl⟩

theorem Follows.trans {o p q : Ongoing} (h : Follows o p) (h' : Follows p q) : Follows o q where
  what := h'.what.trans h.what
  id := h'.id.trans h.id
  due := h'.due.trans h.due
  ended hended := (h'.ended (h.ended hended ▸ hended)).trans (h.ended hended)

end Ongoing

namespace Exchange

/-- The caller of a call gives up, and it ends with an error. -/
def giveUp (x : Exchange) (call : Nat) (o : Ongoing) (e : CallError) : Exchange :=
  (x.cancel o).settle call (.error e)

/-- What is done to the calls and permits there are. -/
inductive Move : Exchange → Exchange → Prop
  /-- A call ends, unless it has ended. -/
  | settle (x : Exchange) (call : Nat) (result : CallResult) : Move x (x.settle call result)
  /-- The backend has got the packet of a call. -/
  | hear (x : Exchange) (call : Nat) :
      Move x (x.updateCall call fun o => { o with isHeard := true })
  /-- Something else happens. -/
  | aside (x y : Exchange) (hcalls : y.calls = x.calls) (hpermits : y.permits = x.permits)
      (hnow : y.now = x.now) : Move x y

/-- Any number of moves. -/
def Moves : Exchange → Exchange → Prop :=
  Relation.ReflTransGen Move

/-- What can happen in an exchange. -/
inductive Turn : Exchange → Exchange → Prop
  /-- Calls begin. -/
  | begin (x : Exchange) (name : String) (purpose : Purpose) (what : List Dispatch)
      (pattern : String) (payload : Json) : Turn x (x.begin name purpose what pattern payload)
  /-- A backend writes. -/
  | write (x : Exchange) (node : Nat) (octets : Bytes) : Turn x (x.write node octets)
  /-- A backend drops its sockets. -/
  | drop (x : Exchange) (node : Nat) : Turn x (x.drop node)
  /-- A client is closed. -/
  | close (x : Exchange) (node : Nat) (side : Side) : Turn x (x.close node side)
  /-- Time passes. -/
  | wait (x : Exchange) (ms : Nat) : Turn x (x.wait ms)
  /-- Callers give up. -/
  | abort (x : Exchange) (name : String) : Turn x (x.abort name)
  /-- What ended is told. -/
  | takeEnded (x : Exchange) : Turn x x.takeEnded.1
  /-- What was seen is told. -/
  | takeSightings (x : Exchange) : Turn x x.takeSightings.1

/-- What an exchange comes to, turn after turn. -/
def Reaches : Exchange → Exchange → Prop :=
  Relation.ReflTransGen Turn

/-- An exchange that some targets were given for, after any turns. -/
def Reachable (x : Exchange) : Prop :=
  ∃ targets settings refusal start,
    ofTargets targets settings refusal = .ok start ∧ Reaches start x

/-- The permits that are out are those of calls that run. -/
structure Accounted (x : Exchange) : Prop where
  taken : x.permits.taken = x.calls.countP Ongoing.holdsPermit
  running : ∀ o ∈ x.calls, o.holdsPermit = true → o.result = none

variable {x y z : Exchange}

/-! ## The End of a Call -/

theorem updateCall_of_call (f : Ongoing → Ongoing) {call : Nat} {o : Ongoing}
    (ho : x.calls[call]? = some o) :
    x.updateCall call f = { x with calls := x.calls.set call (f o) } := by
  rw [updateCall, List.modify_eq_set_getElem?, ho]
  rfl

theorem settle_of_running {call : Nat} {o : Ongoing} (result : CallResult)
    (ho : x.calls[call]? = some o) (hnone : o.result = none) :
    x.settle call result = { x with
      calls := x.calls.set call (o.ended result)
      permits := if o.holdsPermit then x.permits.release else x.permits } := by
  simp only [settle, ho, hnone, Option.isSome_none, Bool.false_eq_true, if_false]
  rw [updateCall_of_call _ ho]
  cases o.holdsPermit <;> rfl

/-- A call that runs ends, and one that has ended is left alone. -/
theorem settle_cases (x : Exchange) (call : Nat) (result : CallResult) :
    (∃ o, x.calls[call]? = some o ∧ o.result = none)
      ∨ (∀ o, x.calls[call]? = some o → o.result.isSome) ∧ x.settle call result = x := by
  cases ho : x.calls[call]? with
  | none =>
      refine Or.inr ⟨fun _ h => absurd h (Option.some_ne_none _).symm, ?_⟩
      rw [settle, ho]
  | some o =>
      cases hresult : o.result with
      | none => exact Or.inl ⟨o, rfl, hresult⟩
      | some r =>
          have hsome : o.result.isSome = true := by rw [hresult]; rfl
          refine Or.inr ⟨fun p hp => Option.some.inj hp ▸ hsome, ?_⟩
          simp only [settle, ho, hsome, if_true]

/-! ## Moves -/

theorem Moves.refl (x : Exchange) : Moves x x :=
  Relation.ReflTransGen.refl

theorem Moves.trans (h : Moves x y) (h' : Moves y z) : Moves x z :=
  Relation.ReflTransGen.trans h h'

theorem moves_aside (hcalls : y.calls = x.calls) (hpermits : y.permits = x.permits)
    (hnow : y.now = x.now) : Moves x y :=
  Relation.ReflTransGen.single (.aside x y hcalls hpermits hnow)

theorem moves_settle (x : Exchange) (call : Nat) (result : CallResult) :
    Moves x (x.settle call result) :=
  Relation.ReflTransGen.single (.settle x call result)

theorem moves_hear (x : Exchange) (call : Nat) :
    Moves x (x.updateCall call fun o => { o with isHeard := true }) :=
  Relation.ReflTransGen.single (.hear x call)

theorem moves_foldl {α : Type} (f : Exchange → α → Exchange) (h : ∀ x a, Moves x (f x a))
    (l : List α) (x : Exchange) : Moves x (l.foldl f x) := by
  induction l generalizing x with
  | nil => exact .refl x
  | cons a l ih => exact (h x a).trans (ih (f x a))

theorem perform_moves (x : Exchange) (node : Nat) (side : Side) (e : Effect) :
    Moves x (x.perform node side e) := by
  cases e with
  | opened socket => exact moves_aside rfl rfl rfl
  | flushed socket octets => exact moves_aside rfl rfl rfl
  | wrote socket frame => exact moves_aside rfl rfl rfl
  | closed socket =>
      simp only [perform]
      split
      · exact moves_aside rfl rfl rfl
      · exact moves_aside rfl rfl rfl
  | settled s =>
      simp only [perform]
      split
      · exact moves_settle x _ s.result
      · exact .refl x

theorem apply_moves (x : Exchange) (node : Nat) (side : Side) (c : Client) (effects : List Effect) :
    Moves x (x.apply node side c effects) := by
  have hplaced : Moves x (x.updateNode node fun n => n.withClient side c) := moves_aside rfl rfl rfl
  exact hplaced.trans (moves_foldl _ (fun x e => perform_moves x node side e) effects _)

theorem hand_moves (x : Exchange) (call : Nat) (pattern : String) (payload : Json) :
    Moves x (x.hand call pattern payload) := by
  unfold hand
  cases x.calls[call]? with
  | none => exact .refl x
  | some o =>
      simp only
      cases x.nodes[o.what.node]? with
      | none => exact .refl x
      | some n =>
          simp only
          cases o.what.kind with
          | event => exact (apply_moves x _ _ _ _).trans (moves_settle _ call _)
          | request =>
              simp only
              split
              · exact (apply_moves x _ _ _ _).trans (moves_settle _ call _)
              · exact (apply_moves x _ _ _ _).trans (moves_hear _ call)

theorem cancel_moves (x : Exchange) (o : Ongoing) : Moves x (x.cancel o) := by
  unfold cancel
  split
  · exact .refl x
  · exact apply_moves x _ _ _ _

theorem giveUp_moves (x : Exchange) (call : Nat) (o : Ongoing) (e : CallError) :
    Moves x (x.giveUp call o e) :=
  (cancel_moves x o).trans (moves_settle _ call (.error e))

theorem expire_eq (x : Exchange) :
    x.expire = (x.unended fun o => o.due.any (· ≤ x.now)).foldl (fun y late =>
      y.giveUp late.1 late.2 (.timeout (y.targetOf late.2.what) (late.2.what.timeout.getD 0))) x :=
  rfl

theorem expire_moves (x : Exchange) : Moves x x.expire := by
  rw [expire_eq]
  exact moves_foldl _ (fun x (late : Nat × Ongoing) => giveUp_moves x late.1 late.2 _) _ x

theorem write_moves (x : Exchange) (node : Nat) (octets : Bytes) :
    Moves x (x.write node octets) := by
  unfold write
  split
  · exact .refl x
  · split
    · exact .refl x
    · exact apply_moves x _ _ _ _

theorem close_moves (x : Exchange) (node : Nat) (side : Side) : Moves x (x.close node side) := by
  unfold close
  split
  · exact .refl x
  · exact apply_moves x _ _ _ _

theorem drop_moves (x : Exchange) (node : Nat) : Moves x (x.drop node) := by
  unfold drop
  split
  · exact .refl x
  · rename_i n _
    have hdropped : Moves x (x.updateNode node fun n =>
        { n with sockets := n.sockets.map fun s => { s with dropped := true } }) :=
      moves_aside rfl rfl rfl
    refine hdropped.trans (moves_foldl _ (fun x a => ?_) _ _)
    simp only
    split
    · exact .refl x
    · exact apply_moves x _ _ _ _

theorem abort_moves (x : Exchange) (name : String) : Moves x (x.abort name) := by
  unfold abort
  simp only
  refine Moves.trans (moves_foldl _ (fun x late => ?_) _ x) (moves_aside rfl rfl rfl)
  exact giveUp_moves x late.1 late.2 (.connectionClosed (x.targetOf late.2.what))

/-! ## What Moves Keep -/

theorem now_moves (h : Moves x y) : y.now = x.now := by
  induction h with
  | refl => rfl
  | tail _ hmove ih =>
      cases hmove with
      | settle call result =>
          refine Eq.trans ?_ ih
          rcases settle_cases _ call result with ⟨o, ho, hnone⟩ | ⟨_, hsame⟩
          · rw [settle_of_running result ho hnone]
          · rw [hsame]
      | hear call => exact ih
      | aside _ hcalls hpermits hnow => exact hnow.trans ih

theorem limit_moves (h : Moves x y) : y.permits.limit = x.permits.limit := by
  induction h with
  | refl => rfl
  | tail _ hmove ih =>
      cases hmove with
      | settle call result =>
          refine Eq.trans ?_ ih
          rcases settle_cases _ call result with ⟨o, ho, hnone⟩ | ⟨_, hsame⟩
          · rw [settle_of_running result ho hnone]
            cases o.holdsPermit <;> rfl
          · rw [hsame]
      | hear call => exact ih
      | aside _ hcalls hpermits hnow => exact (congrArg Permits.limit hpermits).trans ih

/-- To put a call in the place of another changes the count of those that hold a permit by those
    two. -/
theorem countP_set_holders {call : Nat} {o p : Ongoing} (ho : x.calls[call]? = some o) :
    (x.calls.set call p).countP Ongoing.holdsPermit + o.holdsPermit.toNat
      = x.calls.countP Ongoing.holdsPermit + p.holdsPermit.toNat := by
  rcases List.getElem?_eq_some_iff.mp ho with ⟨hlt, hget⟩
  have hmem : o.holdsPermit = true → 0 < x.calls.countP Ongoing.holdsPermit := fun hholds =>
    List.countP_pos_iff.mpr ⟨o, List.mem_of_getElem? ho, hholds⟩
  rw [List.countP_set hlt, hget]
  cases hold : o.holdsPermit <;> cases hnew : p.holdsPermit <;>
    simp only [hold, forall_const, false_implies, if_true, Bool.toNat_true,
      Bool.toNat_false, if_false, Bool.false_eq_true] at hmem ⊢ <;> omega

theorem accounted_move (h : Move x y) (hx : Accounted x) : Accounted y := by
  cases h with
  | settle call result =>
      rcases settle_cases x call result with ⟨o, ho, hnone⟩ | ⟨_, hsame⟩
      · have hcount := countP_set_holders (p := o.ended result) ho
        have htaken := hx.taken
        rw [settle_of_running result ho hnone]
        refine ⟨?_, fun p hp hholds => ?_⟩
        · -- If it held a permit, one comes back.
          cases hold : o.holdsPermit <;>
            simp only [hold, Ongoing.ended, Bool.toNat_true, Bool.toNat_false, if_true,
              Bool.false_eq_true, if_false, Permits.release] at hcount ⊢ <;> omega
        · rcases List.mem_or_eq_of_mem_set hp with hp | rfl
          · exact hx.running p hp hholds
          · exact absurd hholds Bool.false_ne_true
      · rw [hsame]
        exact hx
  | hear call =>
      cases ho : x.calls[call]? with
      | none =>
          have hsame : (x.updateCall call fun o => { o with isHeard := true }).calls = x.calls := by
            rw [updateCall, List.modify_eq_set_getElem?, ho]
            rfl
          exact ⟨hx.taken.trans (by rw [hsame]), hsame ▸ hx.running⟩
      | some o =>
          have hcount := countP_set_holders (p := { o with isHeard := true }) ho
          rw [updateCall_of_call _ ho]
          refine ⟨hx.taken.trans (Nat.add_right_cancel hcount).symm, fun p hp hholds => ?_⟩
          rcases List.mem_or_eq_of_mem_set hp with hp | rfl
          · exact hx.running p hp hholds
          · exact hx.running o (List.mem_of_getElem? ho) hholds
  | aside _ hcalls hpermits _ =>
      refine ⟨?_, ?_⟩
      · rw [hcalls, hpermits]
        exact hx.taken
      · rw [hcalls]
        exact hx.running

theorem accounted_moves (h : Moves x y) (hx : Accounted x) : Accounted y := by
  induction h with
  | refl => exact hx
  | tail _ hmove ih => exact accounted_move hmove ih

theorem length_moves (h : Moves x y) : y.calls.length = x.calls.length := by
  induction h with
  | refl => rfl
  | tail _ hmove ih =>
      cases hmove with
      | settle call result =>
          refine Eq.trans ?_ ih
          rcases settle_cases _ call result with ⟨o, ho, hnone⟩ | ⟨_, hsame⟩
          · rw [settle_of_running result ho hnone]
            exact List.length_set
          · rw [hsame]
      | hear call => exact (List.length_modify ..).trans ih
      | aside _ hcalls _ _ => exact (congrArg List.length hcalls).trans ih

theorem follows_move {call : Nat} {o : Ongoing} (h : Move x y) (ho : x.calls[call]? = some o) :
    ∃ p, y.calls[call]? = some p ∧ o.Follows p := by
  cases h with
  | settle other result =>
      rcases settle_cases x other result with ⟨q, hq, hnone⟩ | ⟨_, hsame⟩
      · rw [settle_of_running result hq hnone]
        by_cases hother : other = call
        · subst hother
          obtain rfl : q = o := Option.some.inj (hq.symm.trans ho)
          refine ⟨q.ended result, ?_, rfl, rfl, rfl, fun hended => ?_⟩
          · exact List.getElem?_set_self (List.getElem?_eq_some_iff.mp ho).1
          · rw [hnone] at hended
            exact absurd hended Bool.false_ne_true
        · exact ⟨o, (List.getElem?_set_ne hother).trans ho, .refl o⟩
      · rw [hsame]
        exact ⟨o, ho, .refl o⟩
  | hear other =>
      rw [updateCall, List.getElem?_modify, ho]
      refine ⟨_, rfl, ?_⟩
      simp only
      split <;> exact ⟨rfl, rfl, rfl, fun _ => rfl⟩
  | aside _ hcalls _ _ =>
      rw [hcalls]
      exact ⟨o, ho, .refl o⟩

/-- A call stays the call it is, and its end is for good. -/
theorem follows_moves {call : Nat} {o : Ongoing} (h : Moves x y) (ho : x.calls[call]? = some o) :
    ∃ p, y.calls[call]? = some p ∧ o.Follows p := by
  induction h with
  | refl => exact ⟨o, ho, .refl o⟩
  | tail _ hmove ih =>
      rcases ih with ⟨p, hp, hfollows⟩
      rcases follows_move hmove hp with ⟨q, hq, hfollows'⟩
      exact ⟨q, hq, hfollows.trans hfollows'⟩

/-! ## Turns -/

/-- What moves keep and the admission of a call keeps is kept when calls begin. -/
theorem begin_induct (P : Exchange → Prop) (hmoves : ∀ x y, Moves x y → P x → P y)
    (hadmission : ∀ x job what, P x → P (x.admission job what).1) (name : String)
    (purpose : Purpose) (what : List Dispatch) (pattern : String) (payload : Json) (h : P x) :
    P (x.begin name purpose what pattern payload) := by
  have hall : ∀ job x, P x → P (beginAll job pattern payload x what).1 := by
    intro job
    induction what with
    | nil => exact fun _ hx => hx
    | cons w rest ih =>
        intro x hx
        simp only [beginAll]
        refine ih _ ?_
        split
        · exact hmoves _ _ (hand_moves _ _ _ _) (hadmission x job w hx)
        · exact hadmission x job w hx
  have hbegun := hall x.jobs.length
    { x with jobs := x.jobs ++ [{ name := name, purpose := purpose }] }
    (hmoves x _ (moves_aside rfl rfl rfl) h)
  exact hmoves _ _ ((moves_foldl _ (fun x call => hand_moves x call pattern payload) _ _).trans
    (expire_moves _)) hbegun

theorem accounted_admission (x : Exchange) (job : Nat) (what : Dispatch) (h : Accounted x) :
    Accounted (x.admission job what).1 := by
  have happend : ∀ (permits : Permits) (o : Ongoing),
      permits.taken = x.permits.taken + o.holdsPermit.toNat →
      (o.holdsPermit = true → o.result = none) →
      Accounted { x with permits := permits, calls := x.calls ++ [o] } := by
    intro permits o htaken hrunning
    refine ⟨?_, fun p hp hholds => ?_⟩
    · simp only [List.countP_append, List.countP_singleton, htaken, h.taken]
      cases o.holdsPermit <;> rfl
    · rcases List.mem_append.mp hp with hp | hp
      · exact h.running p hp hholds
      · rw [List.mem_singleton.mp hp] at hholds ⊢
        exact hrunning hholds
  unfold admission
  cases hside : what.side with
  | direct => exact happend x.permits _ rfl fun hholds => absurd hholds Bool.false_ne_true
  | routed =>
      simp only
      cases hacquire : x.permits.acquire? with
      | none => exact happend x.permits _ rfl fun hholds => absurd hholds Bool.false_ne_true
      | some permits =>
          refine happend permits _ ?_ fun _ => rfl
          unfold Permits.acquire? at hacquire
          split at hacquire
          · rw [← Option.some.inj hacquire]
            rfl
          · exact absurd hacquire (Option.some_ne_none _).symm

theorem follows_admission {call : Nat} {o : Ongoing} (x : Exchange) (job : Nat) (what : Dispatch)
    (h : ∃ p, x.calls[call]? = some p ∧ o.Follows p) :
    ∃ p, (x.admission job what).1.calls[call]? = some p ∧ o.Follows p := by
  rcases h with ⟨p, hp, hfollows⟩
  have hlt : call < x.calls.length := (List.getElem?_eq_some_iff.mp hp).1
  refine ⟨p, ?_, hfollows⟩
  unfold admission
  split
  · exact (List.getElem?_append_left hlt).trans hp
  · split
    · exact (List.getElem?_append_left hlt).trans hp
    · exact (List.getElem?_append_left hlt).trans hp

/-- A turn is moves, unless calls begin in it or time passes. -/
theorem turn_cases (h : Turn x y) :
    (∃ name purpose what pattern payload, y = x.begin name purpose what pattern payload)
      ∨ (∃ ms, y = x.wait ms) ∨ Moves x y := by
  cases h with
  | begin name purpose what pattern payload => exact Or.inl ⟨_, _, _, _, _, rfl⟩
  | wait ms => exact Or.inr (Or.inl ⟨ms, rfl⟩)
  | write node octets => exact Or.inr (Or.inr (write_moves x node octets))
  | drop node => exact Or.inr (Or.inr (drop_moves x node))
  | close node side => exact Or.inr (Or.inr (close_moves x node side))
  | abort name => exact Or.inr (Or.inr (abort_moves x name))
  | takeEnded | takeSightings => exact Or.inr (Or.inr (moves_aside rfl rfl rfl))

/-- The accounts are right after every turn, and what has ended has ended for good. -/
theorem turn_account (h : Turn x y) :
    (Accounted x → Accounted y)
      ∧ ∀ (call : Nat) (o : Ongoing), x.calls[call]? = some o →
        ∃ p, y.calls[call]? = some p ∧ o.Follows p := by
  rcases turn_cases h with ⟨name, purpose, what, pattern, payload, rfl⟩ | ⟨ms, rfl⟩ | hmoves
  · refine ⟨fun hx => ?_, fun call o ho => ?_⟩
    · exact begin_induct Accounted (fun _ _ hmoves => accounted_moves hmoves) accounted_admission
        name purpose what pattern payload hx
    · refine begin_induct (fun y => ∃ p, y.calls[call]? = some p ∧ o.Follows p)
        (fun _ _ hmoves hx => ?_) follows_admission name purpose what pattern payload
        ⟨o, ho, .refl o⟩
      rcases hx with ⟨p, hp, hfollows⟩
      rcases follows_moves hmoves hp with ⟨q, hq, hfollows'⟩
      exact ⟨q, hq, hfollows.trans hfollows'⟩
  · have hexpire := expire_moves { x with now := x.now + ms }
    exact ⟨fun hx => accounted_moves hexpire ⟨hx.taken, hx.running⟩,
      fun _ _ ho => follows_moves hexpire ho⟩
  · exact ⟨accounted_moves hmoves, fun _ _ ho => follows_moves hmoves ho⟩

/-- Whatever has ended has the same result ever after. -/
theorem follows_reaches {call : Nat} {o : Ongoing} (h : Reaches x y)
    (ho : x.calls[call]? = some o) : ∃ p, y.calls[call]? = some p ∧ o.Follows p := by
  induction h with
  | refl => exact ⟨o, ho, .refl o⟩
  | tail _ hturn ih =>
      rcases ih with ⟨p, hp, hfollows⟩
      rcases (turn_account hturn).2 call p hp with ⟨q, hq, hfollows'⟩
      exact ⟨q, hq, hfollows.trans hfollows'⟩

theorem ofTargets_start {targets : List (Target × Bool)} {settings : CallSettings}
    {refusal : String} (h : ofTargets targets settings refusal = .ok x) :
    x.calls = [] ∧ x.permits = .full settings.maxCalls := by
  unfold ofTargets at h
  simp only at h
  cases hregistry : Registry.ofList (targets.map fun t => ⟨t.1, Registry.defaultHost,
      t.1.defaultPort⟩) with
  | error e =>
      rw [hregistry] at h
      cases h
  | ok registry =>
      rw [hregistry] at h
      rw [← Except.ok.inj h]
      exact ⟨rfl, rfl⟩

theorem accounted_of_reachable (h : Reachable x) : Accounted x := by
  rcases h with ⟨targets, settings, refusal, start, hstart, hreaches⟩
  induction hreaches with
  | refl =>
      rcases ofTargets_start hstart with ⟨hcalls, hpermits⟩
      refine ⟨?_, ?_⟩
      · rw [hcalls, hpermits]
        rfl
      · rw [hcalls]
        exact fun _ hmem => absurd hmem List.not_mem_nil
  | tail _ hturn ih => exact (turn_account hturn).1 ih

end Exchange

end Gateway
