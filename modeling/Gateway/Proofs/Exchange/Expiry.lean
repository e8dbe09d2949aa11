import Gateway.Proofs.Client.Cancelling
import Gateway.Proofs.Client.Operations
import Gateway.Proofs.Exchange.Accounts
import Gateway.Proofs.Rehearsal.Deadlines
import Gateway.Proofs.Rehearsal.FanOut

/-!
# Calls Whose Time Is Over

In an exchange a call that goes through has everything at once that a call can have: a time limit, a
permit, and an entry under its id at the client, where a reply will look for it. When its time is
over all of it goes in one step. The caller gives up, so that the client forgets the call, and the
call ends with the error that names its target and its limit, which gives its permit back. The
calls that end in a step like that do not get into each other's way, since every one has a number
of its own (`TimesOut.cons`), and so what happens to them can be said call by call (`Expires`).

Every turn in which time passes or calls begin ends with such a step. So no call is ever found
running whose time is over, be its limit zero.

The theorem at the end puts the three sides of a time limit together: what a caller sees of a call
and when, what a client is left with whose caller gave up, and what becomes of the calls of an
exchange as time passes.

## Main definitions

* `Ongoing.isOverdue`, `Ongoing.timedOut`: A call whose time is over, and what becomes of it.
* `Client.HasEntry`, `Exchange.HasEntry`: A call waits, and what was remembered for it.
* `Exchange.Alike`: Two exchanges that differ only in what the backends see.
* `Exchange.TimesOut`: Some calls have timed out.
* `Exchange.Expires`: The calls have timed out whose time is over, and nothing else has happened.
* `Exchange.Punctual`: No call runs whose time is over.

## Theorems

* `Client.hasEntry_cancel`, `Exchange.hasEntry_cancel`: A call that is given up is forgotten, and no
  other.
* `Exchange.TimesOut.cons`, `Exchange.timesOut_foldl`: Calls time out one after another.
* `Exchange.wait_expires`: What becomes of the calls when time passes.
* `Exchange.punctual_of_reachable`: Calls end in time.
* `Exchange.deadline_exact`: A time limit is kept exactly, and what is given up leaves nothing.
-/

namespace Gateway

namespace Ongoing

/-- Whether the time of a call is over that has not ended. -/
def isOverdue (o : Ongoing) (now : Nat) : Bool :=
  o.result.isNone && o.due.any (· ≤ now)

/-- A call whose time is over, with the error that says so. -/
def timedOut (o : Ongoing) (target : Target) : Ongoing :=
  o.ended (.error (.timeout target (o.what.timeout.getD 0)))

/-- Whether a call is made through a client of a backend, and under an id. -/
def IsAt (o : Ongoing) (node : Nat) (side : Side) (id : String) : Prop :=
  o.what.node = node ∧ o.what.side = side ∧ o.id = id

end Ongoing

/-! ## Entries -/

namespace Client

/-- A call waits over a socket, and some response was remembered for it, or none. -/
def HasEntry (c : Client) (id : String) (socket : Nat) (last : Option Json) : Prop :=
  ∃ k, (socket, k) ∈ c.connections ∧ k.held id = some last

section

variable (c : Client) (id other : String) (socket : Nat) (last : Option Json)

theorem hasEntry_forgetAll : (c.forgetAll id).HasEntry other socket last
    ↔ c.HasEntry other socket last ∧ id ≠ other := by
  constructor
  · rintro ⟨k, hk, hheld⟩
    rcases List.mem_map.mp hk with ⟨⟨n, k'⟩, hmem, heq⟩
    obtain ⟨rfl, rfl⟩ := Prod.mk.inj heq
    have hne : id ≠ other := by
      rintro rfl
      exact absurd (hheld.symm.trans (k'.held_forget_self id)) (Option.some_ne_none _)
    exact ⟨⟨k', hmem, (k'.held_forget_ne id other hne).symm.trans hheld⟩, hne⟩
  · rintro ⟨⟨k, hk, hheld⟩, hne⟩
    exact ⟨k.forget id, List.mem_map.mpr ⟨(socket, k), hk, rfl⟩,
      (k.held_forget_ne id other hne).trans hheld⟩

/-- No connection is let go that somebody waits on. -/
theorem hasEntry_letGo : c.letGo.1.HasEntry id socket last ↔ c.HasEntry id socket last := by
  constructor
  · rintro ⟨k, hk, hheld⟩
    exact ⟨k, (List.mem_filter.mp hk).1, hheld⟩
  · rintro ⟨k, hk, hheld⟩
    have hids : id ∈ k.ids := (k.mem_ids_iff id).mpr (by rw [hheld]; rfl)
    have hwaiters : k.waiters.isEmpty = false := by
      cases hempty : k.waiters with
      | nil =>
          rw [Connection.ids, hempty] at hids
          exact absurd hids List.not_mem_nil
      | cons w ws => rfl
    refine ⟨k, List.mem_filter.mpr ⟨hk, ?_⟩, hheld⟩
    simp only [hwaiters, Bool.and_false, Bool.not_false]

theorem cancel_eq : c.cancel id = (c.forgetAll id).letGo := rfl

/-- The entries of a call are taken away when its caller gives up, and no others. -/
theorem hasEntry_cancel : (c.cancel id).1.HasEntry other socket last
    ↔ c.HasEntry other socket last ∧ id ≠ other := by
  rw [cancel_eq, hasEntry_letGo, hasEntry_forgetAll]

end

end Client

namespace Node

theorem client_withClient (n : Node) (side other : Side) (c : Client) :
    (n.withClient side c).client other = if side = other then c else n.client other := by
  cases side <;> cases other <;> rfl

end Node

namespace Exchange

/-- The client of a backend at a side. -/
def client? (x : Exchange) (node : Nat) (side : Side) : Option Client :=
  x.nodes[node]?.map fun n => n.client side

/-- A call waits at a client of a backend. -/
def HasEntry (x : Exchange) (node : Nat) (side : Side) (id : String) (socket : Nat)
    (last : Option Json) : Prop :=
  ∃ c, x.client? node side = some c ∧ c.HasEntry id socket last

/-- Two exchanges have the same clients, backends and calls. -/
structure Alike (x y : Exchange) : Prop where
  calls : y.calls = x.calls
  targetOf : ∀ what, y.targetOf what = x.targetOf what
  client? : ∀ node side, y.client? node side = x.client? node side

variable {x y z : Exchange}

theorem Alike.refl (x : Exchange) : Alike x x :=
  ⟨rfl, fun _ => rfl, fun _ _ => rfl⟩

theorem Alike.trans (h : Alike x y) (h' : Alike y z) : Alike x z where
  calls := h'.calls.trans h.calls
  targetOf what := (h'.targetOf what).trans (h.targetOf what)
  client? node side := (h'.client? node side).trans (h.client? node side)

theorem client?_updateNode (x : Exchange) (node m : Nat) (side : Side) (f : Node → Node) :
    (x.updateNode node f).client? m side
      = x.nodes[m]?.map fun n => (if node = m then f n else n).client side := by
  rw [client?, updateNode, List.getElem?_modify]
  cases x.nodes[m]? <;> rfl

theorem targetOf_updateNode (x : Exchange) (node : Nat) (f : Node → Node)
    (h : ∀ n, (f n).target = n.target) (what : Dispatch) :
    (x.updateNode node f).targetOf what = x.targetOf what := by
  rw [targetOf, updateNode, List.getElem?_modify, targetOf]
  cases x.nodes[what.node]? with
  | none => rfl
  | some n =>
      simp only [Option.map_eq_map, Option.map_some, Option.getD_some]
      split
      · exact h n
      · rfl

theorem alike_closed (x : Exchange) (node socket : Nat) (side : Side) :
    Alike x (x.perform node side (.closed socket)) := by
  have hupdated : Alike x (x.updateNode node fun n =>
      n.updateSocket socket fun s => { s with gone := true }) := by
    refine ⟨rfl, targetOf_updateNode x node _ (fun _ => rfl), fun m other => ?_⟩
    rw [client?_updateNode, client?]
    refine congrArg (Option.map · _) (funext fun n => ?_)
    split
    · cases other <;> rfl
    · rfl
  simp only [perform]
  split
  · exact hupdated.trans ⟨rfl, fun _ => rfl, fun _ _ => rfl⟩
  · exact hupdated

theorem alike_closings (node : Nat) (side : Side) (effects : List Effect)
    (h : ∀ e ∈ effects, ∃ socket, e = .closed socket) (x : Exchange) :
    Alike x (effects.foldl (fun x e => x.perform node side e) x) := by
  induction effects generalizing x with
  | nil => exact .refl x
  | cons e rest ih =>
      rcases h e List.mem_cons_self with ⟨socket, rfl⟩
      exact (alike_closed x node socket side).trans
        (ih (fun e he => h e (List.mem_cons_of_mem _ he)) _)

/-! ## A Caller That Gives Up -/

section GiveUp

variable (o : Ongoing)

theorem alike_cancel {n : Node} (hn : x.nodes[o.what.node]? = some n) :
    Alike (x.updateNode o.what.node fun m =>
      m.withClient o.what.side ((n.client o.what.side).cancel o.id).1) (x.cancel o) := by
  rw [cancel, hn]
  refine alike_closings o.what.node o.what.side _ (fun e he => ?_) _
  rcases List.mem_map.mp he with ⟨k, _, rfl⟩
  exact ⟨k.1, rfl⟩

theorem calls_cancel : (x.cancel o).calls = x.calls := by
  cases hn : x.nodes[o.what.node]? with
  | none => rw [cancel, hn]
  | some n => exact (alike_cancel o hn).calls

theorem targetOf_cancel (what : Dispatch) : (x.cancel o).targetOf what = x.targetOf what := by
  cases hn : x.nodes[o.what.node]? with
  | none => rw [cancel, hn]
  | some n =>
      rw [(alike_cancel o hn).targetOf]
      refine targetOf_updateNode x _ _ (fun m => ?_) what
      cases o.what.side <;> rfl

theorem client?_cancel (node : Nat) (side : Side) : (x.cancel o).client? node side
    = (x.client? node side).map fun c =>
      if o.what.node = node ∧ o.what.side = side then (c.cancel o.id).1 else c := by
  cases hn : x.nodes[o.what.node]? with
  | none =>
      rw [cancel, hn]
      simp only [client?]
      by_cases hnode : o.what.node = node
      · rw [← hnode, hn]
        rfl
      · simp only [hnode, false_and, if_false, Option.map_id']
  | some n =>
      rw [(alike_cancel o hn).client?, client?_updateNode, client?, Option.map_map]
      by_cases hnode : o.what.node = node
      · subst hnode
        simp only [hn, if_true, true_and, Option.map_some, Function.comp_apply,
          Node.client_withClient]
        by_cases hside : o.what.side = side
        · simp only [hside, if_true]
        · simp only [hside, if_false]
      · simp only [hnode, if_false, false_and, Function.comp_def]

theorem hasEntry_cancel (node : Nat) (side : Side) (id : String) (socket : Nat)
    (last : Option Json) : (x.cancel o).HasEntry node side id socket last
      ↔ x.HasEntry node side id socket last ∧ ¬ o.IsAt node side id := by
  unfold HasEntry Ongoing.IsAt
  rw [client?_cancel]
  cases x.client? node side with
  | none =>
      simp only [Option.map_none, reduceCtorEq, false_and, exists_false]
  | some c =>
      simp only [Option.map_some, Option.some.injEq, exists_eq_left']
      by_cases hplace : o.what.node = node ∧ o.what.side = side
      · rw [if_pos hplace, Client.hasEntry_cancel]
        simp only [hplace.1, hplace.2, true_and]
      · rw [if_neg hplace]
        exact ⟨fun h => ⟨h, fun hat => hplace ⟨hat.1, hat.2.1⟩⟩, And.left⟩

theorem settle_nodes (x : Exchange) (call : Nat) (result : CallResult) :
    (x.settle call result).nodes = x.nodes := by
  rcases settle_cases x call result with ⟨p, hp, hnone⟩ | ⟨_, hsame⟩
  · rw [settle_of_running result hp hnone]
  · rw [hsame]

end GiveUp

/-! ## Time Limits -/

/-- The calls whose time is over, with their numbers. -/
def overdue (x : Exchange) : List (Nat × Ongoing) :=
  x.unended fun o => o.due.any (· ≤ x.now)

/-- A call ends whose time is over. -/
def timeOut (x : Exchange) (late : Nat × Ongoing) : Exchange :=
  x.giveUp late.1 late.2 (.timeout (x.targetOf late.2.what) (late.2.what.timeout.getD 0))

theorem expire_eq_foldl (x : Exchange) : x.expire = x.overdue.foldl timeOut x := rfl

theorem mem_overdue_iff (x : Exchange) (late : Nat × Ongoing) : late ∈ x.overdue
    ↔ x.calls[late.1]? = some late.2 ∧ late.2.isOverdue x.now = true := by
  rcases late with ⟨call, o⟩
  simp only [overdue, unended, List.mem_map, List.mem_filter, Ongoing.isOverdue]
  constructor
  · rintro ⟨⟨p, i⟩, ⟨hmem, hover⟩, heq⟩
    obtain ⟨rfl, rfl⟩ := Prod.mk.inj heq
    exact ⟨List.mem_zipIdx_iff_getElem?.mp hmem, hover⟩
  · rintro ⟨hcall, hover⟩
    exact ⟨(o, call), ⟨List.mem_zipIdx_iff_getElem?.mpr hcall, hover⟩, rfl⟩

theorem overdue_nodup (x : Exchange) : (x.overdue.map Prod.fst).Nodup := by
  have hsublist : (x.overdue.map Prod.fst).Sublist (x.calls.zipIdx.map Prod.snd) := by
    rw [overdue, unended, List.map_map]
    exact (List.filter_sublist).map Prod.snd
  refine hsublist.nodup ?_
  rw [List.zipIdx_map_snd]
  exact List.nodup_range'

/-! ## One Call Times Out -/

theorem timeOut_calls (e : Nat × Ongoing) (he : x.calls[e.1]? = some e.2)
    (hnone : e.2.result = none) :
    (x.timeOut e).calls = x.calls.set e.1 (e.2.timedOut (x.targetOf e.2.what)) := by
  have hcall : (x.cancel e.2).calls[e.1]? = some e.2 := by
    rw [calls_cancel]
    exact he
  rw [timeOut, giveUp, settle_of_running _ hcall hnone, calls_cancel]
  rfl

theorem timeOut_targetOf (e : Nat × Ongoing) (what : Dispatch) :
    (x.timeOut e).targetOf what = x.targetOf what := by
  refine Eq.trans ?_ (targetOf_cancel e.2 what)
  rw [targetOf, timeOut, giveUp, settle_nodes]
  rfl

theorem timeOut_hasEntry (e : Nat × Ongoing) (node : Nat) (side : Side) (id : String)
    (socket : Nat) (last : Option Json) : (x.timeOut e).HasEntry node side id socket last
      ↔ x.HasEntry node side id socket last ∧ ¬ e.2.IsAt node side id := by
  rw [← hasEntry_cancel, HasEntry, client?, timeOut, giveUp, settle_nodes]
  rfl

/-! ## All That Are Due -/

/-- Some calls have timed out, and nothing else has happened. -/
structure TimesOut (expired : List (Nat × Ongoing)) (x y : Exchange) : Prop where
  targetOf : ∀ what, y.targetOf what = x.targetOf what
  ended : ∀ e ∈ expired, y.calls[e.1]? = some (e.2.timedOut (x.targetOf e.2.what))
  rest : ∀ call, call ∉ expired.map Prod.fst → y.calls[call]? = x.calls[call]?
  entries : ∀ node side id socket last, y.HasEntry node side id socket last
    ↔ x.HasEntry node side id socket last ∧ ∀ e ∈ expired, ¬ e.2.IsAt node side id

theorem timesOut_nil (x : Exchange) : TimesOut [] x x where
  targetOf _ := rfl
  ended _ he := absurd he List.not_mem_nil
  rest _ _ := rfl
  entries _ _ _ _ _ := ⟨fun h => ⟨h, fun _ he => absurd he List.not_mem_nil⟩, And.left⟩

/-- Calls of different numbers time out independently of each other. -/
theorem TimesOut.cons {e : Nat × Ongoing} {expired : List (Nat × Ongoing)}
    (he : x.calls[e.1]? = some e.2) (hnone : e.2.result = none)
    (hnotin : e.1 ∉ expired.map Prod.fst) (h : TimesOut expired (x.timeOut e) y) :
    TimesOut (e :: expired) x y where
  targetOf what := (h.targetOf what).trans (timeOut_targetOf e what)
  ended e' he' := by
    rcases List.mem_cons.mp he' with rfl | he'
    · rw [h.rest e'.1 hnotin, timeOut_calls e' he hnone]
      exact List.getElem?_set_self (List.getElem?_eq_some_iff.mp he).1
    · rw [h.ended e' he', timeOut_targetOf]
  rest call hcall := by
    rcases not_or.mp (List.mem_cons.not.mp hcall) with ⟨hne, hrest⟩
    rw [h.rest call hrest, timeOut_calls e he hnone]
    exact List.getElem?_set_ne (Ne.symm hne)
  entries node side id socket last := by
    rw [h.entries, timeOut_hasEntry, and_assoc, List.forall_mem_cons]

theorem timesOut_foldl (expired : List (Nat × Ongoing)) (x : Exchange)
    (hnodup : (expired.map Prod.fst).Nodup)
    (hrunning : ∀ e ∈ expired, x.calls[e.1]? = some e.2 ∧ e.2.result = none) :
    TimesOut expired x (expired.foldl timeOut x) := by
  induction expired generalizing x with
  | nil => exact timesOut_nil x
  | cons e expired ih =>
      rcases List.nodup_cons.mp hnodup with ⟨hnotin, hnodup⟩
      rcases hrunning e List.mem_cons_self with ⟨he, hnone⟩
      refine TimesOut.cons he hnone hnotin (ih (x.timeOut e) hnodup fun e' he' => ?_)
      have hne : e.1 ≠ e'.1 := fun heq => hnotin (heq ▸ List.mem_map_of_mem he')
      rw [timeOut_calls e he hnone, List.getElem?_set_ne hne]
      exact hrunning e' (List.mem_cons_of_mem e he')

/-- It is a given time, and the calls whose time is over have timed out. They have their errors,
    their permits are free again, and nobody waits for them. The other calls are as they were. -/
structure Expires (time : Nat) (x y : Exchange) : Prop where
  now : y.now = time
  calls : y.calls = x.calls.map fun o =>
    if o.isOverdue time then o.timedOut (x.targetOf o.what) else o
  free : y.permits.free
    = x.permits.free + x.calls.countP fun o => o.isOverdue time && o.holdsPermit
  entries (node : Nat) (side : Side) (id : String) (socket : Nat) (last : Option Json) :
    y.HasEntry node side id socket last ↔ x.HasEntry node side id socket last
      ∧ ∀ o ∈ x.calls, o.isOverdue time = true → ¬ o.IsAt node side id

theorem expire_timesOut (x : Exchange) : TimesOut x.overdue x x.expire := by
  rw [expire_eq_foldl]
  refine timesOut_foldl x.overdue x x.overdue_nodup fun e he => ?_
  rcases (x.mem_overdue_iff e).mp he with ⟨hcall, hover⟩
  refine ⟨hcall, ?_⟩
  rw [Ongoing.isOverdue, Bool.and_eq_true] at hover
  exact Option.isNone_iff_eq_none.mp hover.1

theorem expire_calls (x : Exchange) : x.expire.calls
    = x.calls.map fun o => if o.isOverdue x.now then o.timedOut (x.targetOf o.what) else o := by
  refine List.ext_getElem? fun call => ?_
  rw [List.getElem?_map]
  by_cases hmem : call ∈ x.overdue.map Prod.fst
  · rcases List.mem_map.mp hmem with ⟨e, he, rfl⟩
    rcases (x.mem_overdue_iff e).mp he with ⟨hcall, hover⟩
    rw [x.expire_timesOut.ended e he, hcall, Option.map_some, if_pos hover]
  · rw [x.expire_timesOut.rest call hmem]
    cases hcall : x.calls[call]? with
    | none => rfl
    | some o =>
        have hnot : ¬ o.isOverdue x.now = true := fun hover =>
          hmem (List.mem_map.mpr ⟨(call, o), (x.mem_overdue_iff _).mpr ⟨hcall, hover⟩, rfl⟩)
        rw [Option.map_some, if_neg hnot]

/-- The calls that hold a permit afterwards are those that held one and have not timed out. -/
theorem expire_holders (x : Exchange) : x.expire.calls.countP Ongoing.holdsPermit
    = x.calls.countP fun o => o.holdsPermit && !o.isOverdue x.now := by
  rw [expire_calls, List.countP_map]
  refine List.countP_congr fun o _ => ?_
  simp only [Function.comp_apply]
  cases o.isOverdue x.now with
  | true =>
      simp only [if_true, Bool.not_true, Bool.and_false, Bool.false_eq_true]
      exact iff_of_false Bool.false_ne_true id
  | false => simp only [Bool.false_eq_true, if_false, Bool.not_false, Bool.and_true]

theorem expire_free (h : Accounted x) : x.expire.permits.free
    = x.permits.free + x.calls.countP fun o => o.isOverdue x.now && o.holdsPermit := by
  have hle := x.permits.taken_le
  have htaken := (accounted_moves x.expire_moves h).taken
  have hsplit := List.countP_eq_countP_filter_add x.calls Ongoing.holdsPermit
    fun o => o.isOverdue x.now
  rw [List.countP_filter, List.countP_filter, ← h.taken] at hsplit
  have hcomm : (x.calls.countP fun o => o.isOverdue x.now && o.holdsPermit)
      = x.calls.countP fun o => o.holdsPermit && o.isOverdue x.now :=
    List.countP_congr fun o _ => by rw [Bool.and_comm]
  rw [Permits.free, Permits.free, limit_moves x.expire_moves, htaken, expire_holders, hcomm]
  omega

theorem expire_expires (h : Accounted x) : Expires x.now x x.expire where
  now := now_moves x.expire_moves
  calls := x.expire_calls
  free := expire_free h
  entries node side id socket last := by
    rw [x.expire_timesOut.entries]
    refine and_congr_right fun _ => ⟨fun hnone o ho hover => ?_, fun hnone e he => ?_⟩
    · rcases List.getElem?_of_mem ho with ⟨call, hcall⟩
      exact hnone (call, o) ((x.mem_overdue_iff _).mpr ⟨hcall, hover⟩)
    · rcases (x.mem_overdue_iff e).mp he with ⟨hcall, hover⟩
      exact hnone e.2 (List.mem_of_getElem? hcall) hover

/-- No call runs whose time is over. -/
def Punctual (x : Exchange) : Prop :=
  ∀ o ∈ x.calls, o.isOverdue x.now = false

theorem punctual_expire (x : Exchange) : Punctual x.expire := by
  intro o ho
  rw [expire_calls] at ho
  rw [now_moves x.expire_moves]
  rcases List.mem_map.mp ho with ⟨p, _, rfl⟩
  split
  · rfl
  · rename_i hnot
    exact Bool.eq_false_iff.mpr hnot

theorem punctual_moves (h : Moves x y) (hx : Punctual x) : Punctual y := by
  intro p hp
  rcases List.mem_iff_getElem?.mp hp with ⟨call, hcall⟩
  have hlt : call < x.calls.length := by
    rw [← length_moves h]
    exact (List.getElem?_eq_some_iff.mp hcall).1
  have ho := List.getElem?_eq_getElem hlt
  rcases follows_moves h ho with ⟨q, hq, hfollows⟩
  obtain rfl : q = p := Option.some.inj (hq.symm.trans hcall)
  have hold := hx _ (List.getElem_mem hlt)
  cases hresult : q.result with
  | some r => rw [Ongoing.isOverdue, hresult, Option.isNone_some, Bool.false_and]
  | none =>
      -- It has not ended, so it had not ended before.
      have hnone : x.calls[call].result = none := by
        refine Option.not_isSome_iff_eq_none.mp fun hsome => ?_
        rw [← hfollows.ended hsome, hresult] at hsome
        exact absurd hsome Bool.false_ne_true
      rw [Ongoing.isOverdue, hnone] at hold
      rw [Ongoing.isOverdue, hresult, now_moves h, hfollows.due]
      exact hold

theorem turn_punctual (h : Turn x y) (hx : Punctual x) : Punctual y := by
  rcases turn_cases h with ⟨name, purpose, what, pattern, payload, rfl⟩ | ⟨ms, rfl⟩ | hmoves
  · exact punctual_expire _
  · exact punctual_expire _
  · exact punctual_moves hmoves hx

theorem punctual_of_reachable (h : Reachable x) : Punctual x := by
  rcases h with ⟨targets, settings, refusal, start, hstart, hreaches⟩
  induction hreaches with
  | refl =>
      intro o ho
      rw [(ofTargets_start hstart).1] at ho
      exact absurd ho List.not_mem_nil
  | tail _ hturn ih => exact turn_punctual hturn ih

theorem wait_expires (h : Reachable x) (ms : Nat) : Expires (x.now + ms) x (x.wait ms) := by
  have hx := accounted_of_reachable h
  have hlater : Accounted { x with now := x.now + ms } := ⟨hx.taken, hx.running⟩
  rcases expire_expires hlater with ⟨hnow, hcalls, hfree, hentries⟩
  exact ⟨hnow, hcalls, hfree, hentries⟩

/-! ## The Time Limit of a Call -/

/-- A time limit is kept to the millisecond, whatever it is, zero and more than anybody will wait
    for included, and a call that is given up leaves nothing behind.

    * A call to a registered target for which a permit is free comes to just what its client
      answers, be it a value or an error, if that comes no later than the limit, and it does so when
      the answer comes; otherwise it comes to a timeout with its target and its limit, and does so
      at the limit. Everything else about its end is in `EndsOnTime`: its permit is free again and
      its flight gone in that same turn, whatever else goes on, and a client that was late is never
      seen to finish.
    * Each of the calls that are made together, for a broadcast or a probe, has the outcome that it
      would have by itself, unless it is turned away: what its client answers, or a timeout.
    * A call at a client can be given up at any moment while it is under way, and while its packet
      goes out. Its entry is gone then, it is told nothing and takes no turn ever after, and a reply
      that still comes for it is taken from the inbox and changes nothing else.
    * In an exchange no call runs whose time is over. When time passes just those calls time out
      whose time is over then, with their errors, permits and entries, and all others are as they
      were. An end is for good. -/
theorem deadline_exact (registry : Registry) (r : Rehearsal) (e : Entrance) (pattern : String)
    (payload : Json) (target : Target) (limit : Nat) (s : Client.World) (id : String) (x : Exchange)
    (hwired : r.Wired registry) (htarget : e.target ∈ registry.targets)
    (hfree : r.board.permits.free ≠ 0) (hs : Client.Reachable target limit s) (hx : x.Reachable) :
    ((∃ line ∈ r.board.lines, line.target = e.target)
      ∧ ∀ (index : Nat) (line : Line), r.board.lines[index]? = some line →
        line.target = e.target → ∀ answer, answer = line.answer (r.callFor e pattern payload) →
        (answer.after.getD 0 ≤ r.limitFor e →
            (r.step (.perform (e.command pattern payload))).2 = .call answer.result
              ∧ (r.step (.perform (e.command pattern payload))).1.now
                = r.now + answer.after.getD 0)
          ∧ (r.limitFor e < answer.after.getD 0 →
            (r.step (.perform (e.command pattern payload))).2
                = .call (.error (.timeout e.target (r.limitFor e)))
              ∧ (r.step (.perform (e.command pattern payload))).1.now = r.now + r.limitFor e)
          ∧ r.EndsOnTime (e.command pattern payload) e.target (e.arrival pattern payload) answer
            (r.limitFor e))
    ∧ (∀ round : Round, (r.step (.perform round.command)).2
          = round.purpose.conclude ((r.slots round).map Slot.outcome)
        ∧ ∀ (i : Nat) (slot : Slot) (line : Line), (r.slots round)[i]? = some slot →
          r.board.lines[i]? = some line → slot.result ≠ none →
          slot.result = some ((line.answer (round.call (r.board.nextCall + i) line.target
            (r.limit round))).within line.target (r.limit round)))
    ∧ ((∀ t, Client.Step s (.cancels id) t ↔ (s.place id).isUnderWay = true ∧ t = s.gaveUp id)
      ∧ ∀ event t es u, event.GivesUp id → Client.Step s event t → Client.Run t es u →
        u.place id = .ended ∧ told id u.results = told id s.results
          ∧ (∀ event ∈ es, event.caller? ≠ some id) ∧ (∀ n, ¬ u.client.Waits id n)
          ∧ ∀ n body reply v, Reply.ofValue? body = some reply → reply.id = some id →
            Client.Step u (.frame n body) v →
            ∃ rest, v = u.changes n fun k => { k with inbox := rest })
    ∧ (x.Punctual ∧ (∀ ms, Expires (x.now + ms) x (x.wait ms))
      ∧ ∀ y, Reaches x y → ∀ (call : Nat) (o : Ongoing), x.calls[call]? = some o →
        ∃ p, y.calls[call]? = some p ∧ o.Follows p) := by
  refine ⟨⟨?_, fun index line hline hsame answer hanswer => ?_⟩,
    fun round => ⟨(Rehearsal.step_round hwired round).1, ?_⟩,
    ⟨fun t => Client.step_cancels_iff (Client.inv_of_reachable target limit s hs),
      fun event t es u hgives hstep hrun => ?_⟩,
    punctual_of_reachable hx, wait_expires hx,
    fun y hreaches call o ho => follows_reaches hreaches ho⟩
  · rcases Rehearsal.exists_line e hwired htarget with ⟨index, line, hline, hsame⟩
    exact ⟨line, List.mem_of_getElem? hline, hsame⟩
  · have hends := Rehearsal.ends_on_time e pattern payload index line hwired hfree hline hsame
    rw [← hanswer] at hends
    rcases hends.performed with ⟨hresult, hnow⟩
    refine ⟨fun hle => ?_, fun hlt => ?_, hends⟩
    · rw [hresult, hnow, Answer.within, if_pos hle, Answer.takes, Nat.min_eq_left hle]
      exact ⟨rfl, rfl⟩
    · rw [hresult, hnow, Answer.within, if_neg (Nat.not_le_of_lt hlt), Answer.takes,
        Nat.min_eq_right (Nat.le_of_lt hlt)]
      exact ⟨rfl, rfl⟩
  · intro i slot line hslot hline hadmitted
    rw [round.slots_own _ _ _ _ i slot line hslot hline hadmitted]
  · have hinv := Client.inv_of_reachable target limit s hs
    rcases Client.ended_of_gaveUp hinv hgives hstep hrun with ⟨hended, htold, hcallers, hunheld⟩
    have hlast := Client.inv_of_reaches (Client.inv_step s t _ hinv hstep) hrun.reaches
    refine ⟨hended, htold, hcallers, hunheld, fun n body reply v hreply hid hframe => ?_⟩
    exact Client.late_reply hlast (by rw [hended]; rfl) hreply hid hframe

/-- An exchange with one backend. -/
def lone : Exchange where
  nodes := [.new .notification true 1024]
  permits := .full 8
  defaultTimeout := 100
  refusal := "connection refused"

/-- The backend was called with a limit of thirty milliseconds and says nothing. -/
def unanswered : Exchange :=
  lone.one "j" .routed .request 0 "p" .null (some 30)

/-- An answer that comes at the limit counts, and a millisecond later it does not. One of two calls
    on a connection is given up. And the call of `unanswered` ends after thirty milliseconds. -/
theorem deadline_exact_unanswered :
    Rehearsal.panel.Wired .default ∧ Rehearsal.panel.board.permits.free ≠ 0 ∧ unanswered.Reachable
      ∧ (Rehearsal.panel.step (.perform ((Entrance.sendWithin .inventory 50).command "p" .null))).2
        = .call (.error .overloaded)
      ∧ (Rehearsal.panel.step (.perform ((Entrance.sendWithin .inventory 49).command "p" .null))).2
        = .call (.error (.timeout .inventory 49))
      ∧ (∃ s t, Client.Reachable .notification 64 s ∧ Client.Step s (.cancels "a") t
        ∧ s.client.Waits "a" 0 ∧ ¬ t.client.Waits "a" 0 ∧ t.client.Waits "b" 0)
      ∧ (unanswered.wait 29).calls.map Ongoing.result = [none]
      ∧ (unanswered.wait 30).calls.map Ongoing.result = [some (.error (.timeout .notification 30))]
      ∧ unanswered.permits.free = 7 ∧ (unanswered.wait 30).permits.free = 8 := by
  have hwired : Rehearsal.panel.Wired .default :=
    ⟨Rehearsal.panel, [(.notification, .ofScript [⟨some 200, none⟩]),
      (.inventory, .ofScript [⟨some 50, some (.error .overloaded)⟩]), (.aiMl, .echo)], 8, 100,
      ⟨rfl, rfl, rfl, rfl⟩, rfl, Relation.ReflTransGen.refl⟩
  have hturn : Turn lone unanswered :=
    .begin lone "j" .single [⟨0, .routed, .request, "j", some 30⟩] "p" .null
  have hreachable : unanswered.Reachable :=
    ⟨[(.notification, true)], { callTimeout := 100, maxCalls := 8, maxFrame := 1024 },
      "connection refused", lone, rfl, Relation.ReflTransGen.single hturn⟩
  have hquiet : Client.Quiet (.start (.new .notification 64)) :=
    ⟨rfl, rfl, fun _ n hn => absurd hn (Option.some_ne_none n).symm⟩
  rcases Client.performAll_leads
    [.send ⟨.connected 0, none⟩ "a" "p" .null, .send ⟨.connected 1, none⟩ "b" "p" .null]
    (Client.inv_start .notification 64) hquiet (fun _ _ => rfl) (by decide) (by decide +kernel) with
    ⟨_, s, hleads, hclient⟩
  have hwaits : s.client.Waits "a" 0 ∧ s.client.Waits "b" 0 := by
    rw [hclient]
    exact ⟨⟨_, rfl, by decide +kernel⟩, ⟨_, rfl, by decide +kernel⟩⟩
  have hplace : s.place "a" = .waiting 0 := by
    rcases hwaits.1 with ⟨k, hk, hheld⟩
    exact (hleads.quiet.settled "a" 0
      ((Client.inv_of_reachable _ _ s hleads.reaches).waiting 0 k "a" hk hheld)).1
  have hknown : Target.inventory ∈ Registry.default.targets := by decide
  have hends := fun (ms : Nat) => deadline_exact .default Rehearsal.panel
    (.sendWithin .inventory ms) "p" .null .notification 64 s "a" unanswered hwired hknown
    (by decide) hleads.reaches hreachable
  rcases (hends 50).1.2 1 _ rfl rfl _ rfl with ⟨hintime, _, _⟩
  rcases (hends 49).1.2 1 _ rfl rfl _ rfl with ⟨_, hlate, _⟩
  rcases (hends 0).2 with ⟨_, ⟨hcancels, hover⟩, _, hwait, _⟩
  have hstep := (hcancels (s.gaveUp "a")).mpr ⟨by rw [hplace]; rfl, rfl⟩
  refine ⟨hwired, by decide, hreachable, (hintime (by decide)).1, (hlate (by decide)).1,
    ⟨s, s.gaveUp "a", hleads.reaches, hstep, hwaits.1,
      (hover (.cancels "a") _ [] _ rfl hstep (.nil _)).2.2.2.1 0, ?_⟩, ?_, ?_, ?_, ?_⟩
  · rcases hwaits.2 with ⟨k, hk, hheld⟩
    refine ⟨k.forget "a", ?_, ?_⟩
    · exact (Client.connection?_forgetAll s.client "a" 0).trans (by rw [hk]; rfl)
    · rw [k.held_forget_ne "a" "b" (by decide)]
      exact hheld
  · rw [(hwait 29).calls]
    rfl
  · rw [(hwait 30).calls]
    rfl
  · decide +kernel
  · rw [(hwait 30).free]
    decide +kernel

end Exchange

end Gateway
