import Gateway.Proofs.Client.Quiet
import Gateway.Proofs.Frame.Stream

/-!
# The World Without a Call

What would have become of the others, had a call never been made? The question is asked of a run.
The turns of the call are taken out of it, and what is left has to be a run again, with the same
results for everybody else. It is one if the call did nothing that others can see: it opened no
connection, held no lock and marked nothing. All it had then was a waiter, and the waiter of one
call is nothing to any other.

So the two runs are kept side by side, in step. The world without the call is the other one with the
waiters of the call forgotten, and with its place, its history and its results left out (`Omits`). A
turn of anybody else does the same in both, since whatever a party looks at (the slot, the marks,
its own waiter, its own place) is the same in both. A turn of the call itself changes the one world
only, and in nothing that is kept of it.

## Main definitions

* `Client.forgetAll`: A client with nobody waiting under an id.
* `Event.caller?`, `Event.concerns`: Whose turn it is, and the turns that have to do with a call.
* `Omits`: The world as it would be without a call.

## Theorems

* `step_of_caller_ne`: Nobody but its caller moves a call.
* `ended_of_run`: A call that is over stays so, and is told nothing more.
* `Omits.step`, `Omits.step_self`: A turn of others is the same turn without the call, and one of
  the call's own goes unnoticed.
* `Omits.run`: The others come by the same turns to the same without the call.
-/

namespace Gateway

namespace Connection

variable (k : Connection) (id other : String) (target : Target)

theorem forget_forget : (k.forget id).forget id = k.forget id := by
  simp only [forget, List.filter_filter, Bool.and_self]

theorem forget_comm : (k.forget other).forget id = (k.forget id).forget other := by
  simp only [forget, List.filter_filter, Bool.and_comm]

theorem forget_expect : (k.expect id).forget id = k.forget id := by
  have hnew : ([⟨id, none⟩] : List Waiter).filter (fun w => w.id != id) = [] :=
    List.filter_eq_nil_iff.mpr fun w hw hne => by
      rw [List.mem_singleton.mp hw] at hne
      exact bne_iff_ne.mp hne rfl
  have hold := congrArg waiters (k.forget_forget id)
  simp only [expect, forget, List.filter_append, hnew, List.append_nil] at hold ⊢
  rw [hold]

theorem forget_expect_ne (h : other ≠ id) :
    (k.expect other).forget id = (k.forget id).expect other := by
  have hnew : ([⟨other, none⟩] : List Waiter).filter (fun w => w.id != id) = [⟨other, none⟩] :=
    List.filter_eq_self.mpr fun w hw => by
      rw [List.mem_singleton.mp hw]
      exact bne_iff_ne.mpr h
  have hold := congrArg waiters (k.forget_comm id other)
  simp only [expect, forget, List.filter_append, hnew] at hold ⊢
  rw [hold]

theorem forget_remember (response : Option Json) :
    (k.remember other response).forget id = (k.forget id).remember other response := by
  have hid : ((fun w : Waiter => w.id != id)
      ∘ fun w => if w.id == other then { w with last := response.or w.last } else w)
      = fun w => w.id != id := by
    funext w
    by_cases hw : w.id == other
    · simp only [Function.comp_apply, if_pos hw]
    · simp only [Function.comp_apply, if_neg hw]
  simp only [remember, forget, List.filter_map, hid]

/-- A reply does the same whether a call waits or not, but for what it is to that call. -/
theorem accept_forget (reply : Reply) : (k.forget id).accept target reply
    = ((k.accept target reply).1.forget id,
      (k.accept target reply).2.filter fun call => call.id != id) := by
  cases hid : reply.id with
  | none => rw [accept_of_anonymous target _ reply hid, accept_of_anonymous target _ reply hid]; rfl
  | some name =>
      cases hfinal : reply.isFinal with
      | false =>
          rw [accept_of_partial target _ reply name hid hfinal,
            accept_of_partial target _ reply name hid hfinal, forget_remember]
          rfl
      | true =>
          by_cases hname : name = id
          · -- Without the call nobody waits for the reply, and with it nobody else does.
            subst hname
            rw [accept_of_unheld target _ reply name hid (held_forget_self k name)]
            cases hheld : k.held name with
            | none => rw [accept_of_unheld target k reply name hid hheld]; rfl
            | some last =>
                rw [accept_of_final target k reply name last hid hfinal hheld, forget_forget]
                refine congrArg (Prod.mk _)
                  (List.filter_eq_nil_iff.mpr fun call hcall hne => ?_).symm
                rw [List.mem_singleton.mp hcall] at hne
                exact bne_iff_ne.mp hne rfl
          · have hsame := held_forget_ne k id name fun hc => hname hc.symm
            cases hheld : k.held name with
            | none =>
                rw [accept_of_unheld target k reply name hid hheld,
                  accept_of_unheld target _ reply name hid (hsame.trans hheld)]
                rfl
            | some last =>
                rw [accept_of_final target k reply name last hid hfinal hheld,
                  accept_of_final target _ reply name last hid hfinal (hsame.trans hheld),
                  forget_comm]
                refine congrArg (Prod.mk _) (List.filter_eq_self.mpr fun call hcall => ?_).symm
                rw [List.mem_singleton.mp hcall]
                exact bne_iff_ne.mpr hname

theorem acceptValue_forget (v : Json) : (k.forget id).acceptValue target v
    = ((k.acceptValue target v).1.forget id,
      (k.acceptValue target v).2.filter fun call => call.id != id) := by
  rw [acceptValue, acceptValue]
  cases Reply.ofValue? v with
  | none => rfl
  | some reply => exact accept_forget k id target reply

theorem fail_forget (h : other ≠ id) : (k.forget id).fail target other
    = ((k.fail target other).1.forget id,
      (k.fail target other).2.filter fun call => call.id != id) := by
  have hsame := held_forget_ne k id other fun hc => h hc.symm
  cases hheld : k.held other with
  | none =>
      rw [fail_of_unheld target k other hheld, fail_of_unheld target _ other (hsame.trans hheld)]
      rfl
  | some last =>
      rw [fail_of_held target k other last hheld,
        fail_of_held target _ other last (hsame.trans hheld), forget_comm]
      refine congrArg (Prod.mk _) (List.filter_eq_self.mpr fun call hcall => ?_).symm
      rw [List.mem_singleton.mp hcall]
      exact bne_iff_ne.mpr h

/-- Failing a call takes its waiter away and tells nobody else. -/
theorem fail_self : (k.fail target id).1.forget id = k.forget id
    ∧ (k.fail target id).2.filter (fun call => call.id != id) = [] := by
  cases hheld : k.held id with
  | none => rw [fail_of_unheld target k id hheld]; exact ⟨rfl, rfl⟩
  | some last =>
      rw [fail_of_held target k id last hheld]
      refine ⟨forget_forget k id, List.filter_eq_nil_iff.mpr fun call hcall hne => ?_⟩
      rw [List.mem_singleton.mp hcall] at hne
      exact bne_iff_ne.mp hne rfl

end Connection

namespace Client

/-! ## Forgetting Everywhere -/

/-- The client with nobody waiting under an id. -/
def forgetAll (c : Client) (id : String) : Client :=
  { c with connections := c.connections.map fun e => (e.1, e.2.forget id) }

section

variable (c : Client) (id : String) (n m : Nat)

theorem sockets_forgetAll : (c.forgetAll id).sockets = c.sockets := by
  rw [sockets, forgetAll, List.map_map, sockets]
  rfl

theorem connection?_forgetAll :
    (c.forgetAll id).connection? n = (c.connection? n).map (·.forget id) := by
  rw [connection?, forgetAll, List.find?_map, connection?, Option.map_map, Option.map_map]
  rfl

theorem flag?_forgetAll : (c.forgetAll id).flag? n = c.flag? n := by
  rw [flag?, connection?_forgetAll, flag?, Option.map_map]
  rfl

theorem ready?_forgetAll : (c.forgetAll id).ready? = c.ready? := by
  refine Option.ext fun n => ?_
  rw [ready?_eq_some_iff, ready?_eq_some_iff, flag?_forgetAll]
  rfl

theorem forgetAll_update (f g : Connection → Connection)
    (h : ∀ k, c.connection? n = some k → (f k).forget id = g (k.forget id))
    (hnodup : c.sockets.Nodup) :
    (c.update n f).forgetAll id = (c.forgetAll id).update n g := by
  have hmap : ∀ e ∈ c.connections,
      ((if e.1 == n then (e.1, f e.2) else e).1, (if e.1 == n then (e.1, f e.2) else e).2.forget id)
        = if e.1 == n then (e.1, g (e.2.forget id)) else (e.1, e.2.forget id) := by
    intro e he
    by_cases hn : e.1 == n
    · have hfound := c.connection?_of_mem e.1 e.2 hnodup he
      rw [beq_iff_eq.mp hn] at hfound
      rw [if_pos hn, if_pos hn, h e.2 hfound]
    · rw [if_neg hn, if_neg hn]
  have hsame := List.map_congr_left hmap
  simp only [forgetAll, update, List.map_map]
  congr 1

/-- What changes no waiter but that of the call is not seen when the call is forgotten. -/
theorem forgetAll_update_self (f : Connection → Connection)
    (h : ∀ k, c.connection? n = some k → (f k).forget id = k.forget id)
    (hnodup : c.sockets.Nodup) : (c.update n f).forgetAll id = c.forgetAll id := by
  rw [c.forgetAll_update id n f (fun k => k) h hnodup]
  refine update_self _ n _ (fun _ _ => rfl) ?_
  rw [sockets_forgetAll]
  exact hnodup

theorem forgetAll_connect : (c.connect n).forgetAll id = (c.forgetAll id).connect n := by
  simp only [forgetAll, connect, List.map_append]
  rfl

theorem forgetAll_without : (c.without n).forgetAll id = (c.forgetAll id).without n := by
  simp only [forgetAll, without, keep, List.filter_map]
  rfl

/-- A packet that is too long is refused before anything of it is put into the buffer. -/
theorem put_of_oversized (p : Request) (hlong : c.limit < p.toText.length) :
    c.put n p = (c, .error (.codec c.target (.tooLarge p.toText.length c.limit))) := by
  have hrefused := Frame.encode_of_lt c.limit p.toText [] hlong
  rcases c.put_cases n p with ⟨e, hencode, hput⟩ | ⟨_, hencode, _⟩
  · rw [hput, Except.error.inj (hencode.symm.trans hrefused)]
  · rw [hrefused] at hencode
    cases hencode

/-- A packet that is too long is refused before anything is written. -/
theorem write_of_oversized (network : Network) (p : Request) (hlong : c.limit < p.toText.length) :
    c.write network n p
      = (c, [], .error (.codec c.target (.tooLarge p.toText.length c.limit))) := by
  rw [write, c.put_of_oversized n p hlong]

/-- Where nobody waits under an id there is nothing to forget. -/
theorem forgetAll_of_unheld (hnodup : c.sockets.Nodup) (h : ∀ n, ¬ c.Waits id n) :
    c.forgetAll id = c := by
  have hmap : (c.connections.map fun e => (e.1, e.2.forget id)) = c.connections := by
    refine (List.map_congr_left fun e he => ?_).trans (List.map_id _)
    have hfound := c.connection?_of_mem e.1 e.2 hnodup he
    rw [Connection.forget_of_unheld e.2 id
      (Option.not_isSome_iff_eq_none.mp fun hheld => h e.1 ⟨e.2, hfound, hheld⟩)]
    rfl
  rw [forgetAll, hmap]

end

/-! ## Turns and Runs -/

/-- Whose turn it is, if it is a call's. -/
def Event.caller? : Event → Option String
  | .finds id | .dials id | .connects id _ | .refused id _ _ | .expects id | .looks id
  | .writes id _ _ | .takes id | .interrupts id _ | .cancels id => some id
  | .flushes _ _ | .arrives _ _ | .frame _ _ | .breaks _ _ | .rejects _ _ | .ends _ | .closes
  | .marks _ | .fails _ _ | .drops _ => none

/-- Whether a turn is a call's own, or fails it. -/
def Event.concerns (id : String) : Event → Bool
  | .fails _ other => other == id
  | e => e.caller? == some id

theorem concerns_of_caller {e : Event} {id : String} (h : e.caller? = some id) :
    e.concerns id = true := by
  cases e with
  | fails n other => exact absurd h (Option.some_ne_none id).symm
  | _ => exact beq_iff_eq.mpr h

variable {s t u s' : World} {e : Event} {es : List Event} {id other : String} {n : Nat}

theorem told_append_map_ne (ss : List Settled) (rs : List CallResult) (h : other ≠ id) :
    told id (ss ++ rs.map fun r => ⟨other, r⟩) = told id ss := by
  rw [Connection.told_append_map, if_neg h, List.append_nil]

theorem told_append_map_self (ss : List Settled) (rs : List CallResult) :
    told id (ss ++ rs.map fun r => ⟨id, r⟩) = told id ss ++ rs := by
  rw [Connection.told_append_map, if_pos rfl]

/-- Nobody but its caller moves a call or tells it its result. -/
theorem step_of_caller_ne (hstep : Step s e t) (hcaller : e.caller? ≠ some id) :
    t.place id = s.place id ∧ told id t.results = told id s.results := by
  have hne : ∀ other, some other ≠ some id → id ≠ other := fun other hc hid => hc (hid ▸ rfl)
  cases hstep with
  | finds other n hplace hlock hready => exact ⟨enters_ne s other id _ (hne other hcaller), rfl⟩
  | dials other hplace hlock hready => exact ⟨enters_ne s other id _ (hne other hcaller), rfl⟩
  | connects other n hplace hnew => exact ⟨enters_ne s other id _ (hne other hcaller), rfl⟩
  | refused other kind text hplace =>
      exact ⟨enters_ne s other id _ (hne other hcaller),
        told_append_map_ne _ _ (hne other hcaller).symm⟩
  | abandons other hplace =>
      exact ⟨enters_ne s other id _ (hne other hcaller),
        told_append_map_ne _ _ (hne other hcaller).symm⟩
  | expects other n hplace => exact ⟨enters_ne _ other id _ (hne other hcaller), rfl⟩
  | admits other n hplace hflag => exact ⟨enters_ne s other id _ (hne other hcaller), rfl⟩
  | repels other n hplace hflag =>
      exact ⟨leaves_ne s other id n _ (hne other hcaller),
        told_append_map_ne _ _ (hne other hcaller).symm⟩
  | writes other n network p hplace =>
      have hleaves : ∀ (f : Connection → Connection) (rs : List CallResult),
          ((s.changes n f).leaves other n rs).place id = s.place id
            ∧ told id ((s.changes n f).leaves other n rs).results = told id s.results :=
        fun _ _ => ⟨leaves_ne _ other id n _ (hne other hcaller),
          told_append_map_ne _ _ (hne other hcaller).symm⟩
      rcases writes_cases s other n p network with ⟨_, _, hwrites⟩ | ⟨_, _, _, _, _, hwrites⟩ |
        ⟨_, _, _, hwrites⟩
      · rw [hwrites]
        exact ⟨leaves_ne _ other id n _ (hne other hcaller),
          told_append_map_ne _ _ (hne other hcaller).symm⟩
      · rw [hwrites]
        exact hleaves _ _
      · rw [hwrites]
        cases p.isEvent with
        | true => exact hleaves _ _
        | false => exact ⟨enters_ne _ other id _ (hne other hcaller), rfl⟩
  | interrupts other n p frame hplace hframe =>
      exact ⟨leaves_ne _ other id n _ (hne other hcaller),
        told_append_map_ne _ _ (hne other hcaller).symm⟩
  | takes other n m r hplace hmail =>
      exact ⟨leaves_ne s other id n _ (hne other hcaller),
        told_append_map_ne _ _ (hne other hcaller).symm⟩
  | cancels other n hplace =>
      exact ⟨leaves_ne s other id n _ (hne other hcaller),
        told_append_map_ne _ _ (hne other hcaller).symm⟩
  | flushes | arrives | frame | breaks | rejects | ends | closesNone | closes | marks | fails
  | drops => exact ⟨rfl, rfl⟩

/-- A call that is over has no turns left. -/
theorem caller_ne_of_ended (hstep : Step s e t) (hplace : s.place id = .ended) :
    e.caller? ≠ some id := by
  -- Every turn of a call is taken at another place, and this is the only way to have one.
  have hother : ∀ (other : String) (p : Place), s.place other = p → p ≠ .ended →
      some other ≠ some id := by
    rintro other p hp hne hc
    rw [Option.some.inj hc, hplace] at hp
    exact hne hp.symm
  have hsocket : ∀ other m, (s.place other).socket? = some m → some other ≠ some id := by
    intro other m hm
    refine hother other _ rfl fun hc => ?_
    rw [hc] at hm
    exact Option.some_ne_none m hm.symm
  cases hstep with
  | finds other n hidle => exact hother other _ hidle Place.noConfusion
  | dials other hidle => exact hother other _ hidle Place.noConfusion
  | connects other n hconnecting => exact hother other _ hconnecting Place.noConfusion
  | refused other kind text hconnecting => exact hother other _ hconnecting Place.noConfusion
  | abandons other hconnecting => exact hother other _ hconnecting Place.noConfusion
  | expects other n hgiven => exact hother other _ hgiven Place.noConfusion
  | admits other n hentered => exact hother other _ hentered Place.noConfusion
  | repels other n hentered => exact hother other _ hentered Place.noConfusion
  | writes other n network p hwriter => exact hsocket other n (socket?_of_writer hwriter)
  | interrupts other n p frame hwriter => exact hsocket other n (socket?_of_writer hwriter)
  | takes other n m r hwaiting => exact hother other _ hwaiting Place.noConfusion
  | cancels other n hplaced => exact hsocket other n hplaced
  | flushes | arrives | frame | breaks | rejects | ends | closesNone | closes | marks | fails
  | drops => exact (Option.some_ne_none id).symm

/-- A call that is over stays so: it takes no turn and is told nothing more. -/
theorem ended_of_run (hrun : Run s es t) (hplace : s.place id = .ended) :
    t.place id = .ended ∧ told id t.results = told id s.results
      ∧ ∀ e ∈ es, e.caller? ≠ some id := by
  induction hrun with
  | nil s => exact ⟨hplace, rfl, fun e he => absurd he List.not_mem_nil⟩
  | cons hstep _ ih =>
      have hcaller := caller_ne_of_ended hstep hplace
      rcases step_of_caller_ne hstep hcaller with ⟨hkept, htold⟩
      rcases ih (hkept.trans hplace) with ⟨hended, htold', hcallers⟩
      refine ⟨hended, htold'.trans htold, fun e he => ?_⟩
      rcases List.mem_cons.mp he with rfl | he
      · exact hcaller
      · exact hcallers e he

/-! ## Side by Side -/

/-- The world `s'` is what `s` would be without a call. -/
structure Omits (id : String) (s s' : World) : Prop where
  client : s'.client = s.client.forgetAll id
  place : ∀ other, other ≠ id → s'.place other = s.place other
  -- Without the call, it has not begun.
  idle : s'.place id = .idle
  lock : s'.lock = s.lock
  leaving : s'.leaving = s.leaving
  swept : s'.swept = s.swept
  opened : s'.opened = s.opened
  issued : s'.issued = s.issued.filter fun e => e.1 != id
  mail : s'.mail = s.mail.filter fun e => e.2.id != id
  told : ∀ other, other ≠ id → Gateway.told other s'.results = Gateway.told other s.results

/-- Before a call begins nothing has to be left out. -/
theorem omits_refl (h : Inv s) (hplace : s.place id = .idle) : Omits id s s where
  client := (s.client.forgetAll_of_unheld id h.nodup
    (not_waits_of_place h (by rw [hplace]; rfl))).symm
  place := fun _ _ => rfl
  idle := hplace
  lock := rfl
  leaving := rfl
  swept := rfl
  opened := rfl
  issued := by
    refine (List.filter_eq_self.mpr fun e he => bne_iff_ne.mpr ?_).symm
    rintro rfl
    exact h.unissued e.1 (Or.inl hplace) e.2 he
  mail := by
    refine (List.filter_eq_self.mpr fun e he => bne_iff_ne.mpr ?_).symm
    rintro rfl
    exact h.unissued e.2.id (Or.inl hplace) e.1 (h.mailed e.1 e.2 he)
  told := fun _ _ => rfl

theorem Omits.target (h : Omits id s s') : s'.client.target = s.client.target := by
  rw [h.client]
  rfl

theorem Omits.ready? (h : Omits id s s') : s'.client.ready? = s.client.ready? := by
  rw [h.client, ready?_forgetAll]

theorem Omits.connection? (h : Omits id s s') {k : Connection}
    (hk : s.client.connection? n = some k) : s'.client.connection? n = some (k.forget id) := by
  rw [h.client, connection?_forgetAll, hk, Option.map_some]

/-! ### What the call itself changes -/

theorem Omits.enters_self (h : Omits id s s') (p : Place) : Omits id (s.enters id p) s' :=
  { h with
    place := fun other hother => (h.place other hother).trans (enters_ne s id other p hother).symm }

/-- What the call does to a connection is left out if it is to its own waiter. -/
theorem Omits.changes_self (h : Omits id s s') (hnodup : s.client.sockets.Nodup)
    (f : Connection → Connection)
    (hf : ∀ k, s.client.connection? n = some k → (f k).forget id = k.forget id) :
    Omits id (s.changes n f) s' :=
  { h with client := h.client.trans (s.client.forgetAll_update_self id n f hf hnodup).symm }

theorem Omits.leaves_self (h : Omits id s s') (hnodup : s.client.sockets.Nodup)
    (results : List CallResult) : Omits id (s.leaves id n results) s' :=
  { (h.changes_self (n := n) hnodup (·.forget id) fun k _ => k.forget_forget id).enters_self
      .ended with
    told := fun other hother => (h.told other hother).trans
      (told_append_map_ne _ _ fun hc => hother hc.symm).symm }

/-- To be given a connection is nothing that is left of a call when it is left out. -/
theorem omits_gives (h : Inv s) (hplace : s.place id = .idle) : Omits id (s.gives id n) s := by
  refine { (omits_refl h hplace).enters_self (.given n) with issued := ?_ }
  have hnone : [(id, n)].filter (fun e => e.1 != id) = [] :=
    List.filter_eq_nil_iff.mpr fun e he hne => by
      rw [List.mem_singleton.mp he] at hne
      exact bne_iff_ne.mp hne rfl
  simp only [World.gives, List.filter_append, hnone, List.append_nil]
  exact (omits_refl h hplace).issued

/-- A call that was given a connection, whatever has become of it since. -/
def Place.isBegun : Place → Bool
  | idle | connecting => false
  | given _ | entered _ | admitted _ | waiting _ | ended => true

/-- A turn in which a call writes a packet, or begins to. -/
def Event.packet? (id : String) : Event → Option Request
  | .writes other _ p | .interrupts other p => if other = id then some p else none
  | _ => none

theorem packet?_writes (network : Network) (p : Request) :
    (Event.writes id network p).packet? id = some p := if_pos rfl

theorem packet?_interrupts (p : Request) : (Event.interrupts id p).packet? id = some p :=
  if_pos rfl

/-- A turn of the call goes unnoticed once it has a connection, unless it writes a frame. -/
theorem Omits.step_self (h : Omits id s s') (hinv : Inv s) (hstep : Step s e t)
    (hconcerns : e.concerns id = true) (hbegun : (s.place id).isBegun = true)
    (hlong : ∀ p, e.packet? id = some p → s.client.limit < p.toText.length) :
    Omits id t s' ∧ (t.place id).isBegun = true := by
  have hnodup := hinv.nodup
  have hself : ∀ {other : String}, (some other == some id) = true → other = id := fun hc =>
    Option.some.inj (beq_iff_eq.mp hc)
  have hnot : ∀ p : Place, s.place id = p → p.isBegun = false → False := by
    rintro p rfl hp
    exact Bool.false_ne_true (hp.symm.trans hbegun)
  have hleaves : ∀ n results, Omits id (s.leaves id n results) s'
      ∧ ((s.leaves id n results).place id).isBegun = true := fun n results =>
    ⟨h.leaves_self hnodup results, by rw [Client.leaves_self]; rfl⟩
  have henters : ∀ (u : World) (p : Place), p.isBegun = true →
      ((u.enters id p).place id).isBegun = true := fun u p hp => by rwa [Client.enters_self]
  cases hstep with
  | finds other n hidle => rcases hself hconcerns; exact (hnot _ hidle rfl).elim
  | dials other hidle => rcases hself hconcerns; exact (hnot _ hidle rfl).elim
  | connects other n hconnecting => rcases hself hconcerns; exact (hnot _ hconnecting rfl).elim
  | refused other kind text hconnecting =>
      rcases hself hconcerns
      exact (hnot _ hconnecting rfl).elim
  | abandons other hconnecting => rcases hself hconcerns; exact (hnot _ hconnecting rfl).elim
  | expects other n hgiven =>
      rcases hself hconcerns
      exact ⟨(h.changes_self hnodup (·.expect id) fun k _ => k.forget_expect id).enters_self _,
        henters _ _ rfl⟩
  | admits other n hentered hflag =>
      rcases hself hconcerns
      exact ⟨h.enters_self _, henters _ _ rfl⟩
  | repels other n hentered hflag =>
      rcases hself hconcerns
      exact hleaves n _
  | writes other n network p hwriter =>
      rcases hself hconcerns
      rw [World.writes,
        s.client.write_of_oversized n network p (hlong p (packet?_writes network p))]
      exact hleaves n _
  | interrupts other n p frame hwriter hframe =>
      rcases hself hconcerns
      rw [Frame.encode_of_lt _ _ _ (hlong p (packet?_interrupts p))] at hframe
      cases hframe
  | takes other n m r hwaiting hmail =>
      rcases hself hconcerns
      exact hleaves n _
  | cancels other n hplaced =>
      rcases hself hconcerns
      exact hleaves n _
  | fails n k other hswept hk =>
      rcases (beq_iff_eq.mp hconcerns : other = id)
      rcases k.fail_self id s.client.target with ⟨hforgets, hnone⟩
      refine ⟨{ h.changes_self (n := n) hnodup (fun _ => (k.fail s.client.target id).1)
        (fun k' hk' => by rw [← Option.some.inj (hk.symm.trans hk')]; exact hforgets) with
          mail := ?_ }, hbegun⟩
      have hmail : ((k.fail s.client.target id).2.map fun call => (n, call)).filter
          (fun e => e.2.id != id) = [] := by
        rw [List.filter_map]
        exact congrArg (List.map fun call => (n, call)) hnone
      simp only [World.settles, List.filter_append, hmail, List.append_nil, h.mail]
  | flushes | arrives | frame | breaks | rejects | ends | closesNone | closes | marks | drops =>
      exact absurd hconcerns Bool.false_ne_true

/-! ### What others change -/

theorem Omits.enters (h : Omits id s s') (p : Place) (hother : other ≠ id) :
    Omits id (s.enters other p) (s'.enters other p) :=
  { h with
    place := by
      intro name hname
      by_cases hsame : name = other
      · rw [hsame, Client.enters_self, Client.enters_self]
      · rw [enters_ne s other name p hsame, enters_ne s' other name p hsame]
        exact h.place name hname
    idle := (enters_ne s' other id p fun hc => hother hc.symm).trans h.idle }

theorem Omits.changes (h : Omits id s s') (hnodup : s.client.sockets.Nodup)
    (f g : Connection → Connection)
    (hf : ∀ k, s.client.connection? n = some k → (f k).forget id = g (k.forget id)) :
    Omits id (s.changes n f) (s'.changes n g) :=
  { h with
    client := by
      rw [client_changes, client_changes, h.client]
      exact (s.client.forgetAll_update id n f g hf hnodup).symm }

theorem Omits.returns (h : Omits id s s') (rs : List Settled) :
    Omits id { s with results := s.results ++ rs } { s' with results := s'.results ++ rs } :=
  { h with told := fun other hother => by rw [told_append, told_append, h.told other hother] }

theorem Omits.leaves (h : Omits id s s') (hnodup : s.client.sockets.Nodup)
    (results : List CallResult) (hother : other ≠ id) :
    Omits id (s.leaves other n results) (s'.leaves other n results) :=
  (((h.changes (n := n) hnodup (·.forget other) (·.forget other)
    fun k _ => k.forget_comm id other).enters .ended hother).returns _)

theorem Omits.settles (h : Omits id s s') (hnodup : s.client.sockets.Nodup)
    (did did' : Connection × List Settled)
    (hdid : did' = (did.1.forget id, did.2.filter fun call => call.id != id)) :
    Omits id (s.settles n did) (s'.settles n did') :=
  { h.changes (n := n) hnodup (fun _ => did.1) (fun _ => did'.1) (fun _ _ => by rw [hdid]) with
    mail := by
      have hmail : (did.2.map fun call => (n, call)).filter (fun e => e.2.id != id)
          = did'.2.map fun call => (n, call) := by
        rw [hdid, List.filter_map]
        rfl
      exact (congrArg (· ++ did'.2.map fun call => (n, call)) h.mail).trans
        (by rw [← hmail]; exact (List.filter_append ..).symm) }

theorem Omits.shuts (h : Omits id s s') (hnodup : s.client.sockets.Nodup) (k : Connection) :
    Omits id (s.shuts n k) (s'.shuts n (k.forget id)) :=
  { h.changes (n := n) hnodup (fun _ => { k.mark with isRead := false })
      (fun _ => { (k.forget id).mark with isRead := false }) fun _ _ => rfl with
    swept := congrArg (n :: ·) h.swept }

theorem Omits.gives (h : Omits id s s') (hother : other ≠ id) :
    Omits id (s.gives other n) (s'.gives other n) :=
  { h.enters (.given n) hother with
    issued := by
      have hkept : [(other, n)].filter (fun e => e.1 != id) = [(other, n)] :=
        List.filter_eq_self.mpr fun e he => by
          rw [List.mem_singleton.mp he]
          exact bne_iff_ne.mpr hother
      simp only [World.gives, List.filter_append, hkept, h.issued] }

theorem Omits.limit (h : Omits id s s') : s'.client.limit = s.client.limit := by
  rw [h.client]
  rfl

/-- What is put into the buffer of a connection, or taken from it, is the same without the call. -/
theorem Omits.changes_leaves (h : Omits id s s') (hnodup : s.client.sockets.Nodup)
    (f : Connection → Connection) (results : List CallResult) (hother : other ≠ id)
    (hf : ∀ k, (f k).forget id = f (k.forget id)) :
    Omits id ((s.changes n f).leaves other n results) ((s'.changes n f).leaves other n results) :=
  (h.changes (n := n) hnodup f f fun k _ => hf k).leaves
    (by rw [client_changes, sockets_update]; exact hnodup) results hother

theorem Omits.writes (h : Omits id s s') (hnodup : s.client.sockets.Nodup) (network : Network)
    (p : Request) (hother : other ≠ id) :
    Omits id (s.writes other n network p) (s'.writes other n network p) := by
  rw [writes_eq, writes_eq, h.limit, h.target]
  cases Frame.encode s.client.limit p.toText [] with
  | error e => exact h.leaves hnodup _ hother
  | ok frame =>
      cases network.writeFault with
      | some fault => exact h.changes_leaves hnodup _ _ hother fun _ => rfl
      | none =>
          cases p.isEvent with
          | true => exact h.changes_leaves hnodup .drain _ hother fun _ => rfl
          | false => exact (h.changes hnodup .drain .drain fun _ _ => rfl).enters _ hother

/-- A turn that does not concern the call is the same turn without it. -/
theorem Omits.step (h : Omits id s s') (hinv : Inv s) (hstep : Step s e t)
    (hconcerns : e.concerns id = false) : ∃ t', Step s' e t' ∧ Omits id t t' := by
  have hnodup := hinv.nodup
  have hne : ∀ other : String, (some other == some id) = false → other ≠ id := by
    rintro other hc rfl
    rw [beq_self_eq_true] at hc
    exact Bool.false_ne_true hc.symm
  have hlimit := h.limit
  have hslot : s'.client.slot = s.client.slot := by
    rw [h.client]
    rfl
  cases hstep with
  | finds other n hplace hlock hready =>
      have hother := hne other hconcerns
      exact ⟨_, .finds s' other n ((h.place other hother).trans hplace) (h.lock.trans hlock)
        (h.ready?.trans hready), h.gives hother⟩
  | dials other hplace hlock hready =>
      have hother := hne other hconcerns
      exact ⟨_, .dials s' other ((h.place other hother).trans hplace) (h.lock.trans hlock)
        (h.ready?.trans hready), { h.enters .connecting hother with lock := rfl }⟩
  | connects other n hplace hnew =>
      have hother := hne other hconcerns
      refine ⟨_, .connects s' other n ((h.place other hother).trans hplace)
        (fun hc => hnew (h.opened ▸ hc)), { h.gives hother with
          client := ?_
          lock := rfl
          opened := congrArg (· ++ [n]) h.opened }⟩
      exact (congrArg (connect · n) h.client).trans (s.client.forgetAll_connect id n).symm
  | refused other kind text hplace =>
      have hother := hne other hconcerns
      have hstep' := Step.refused s' other kind text ((h.place other hother).trans hplace)
      rw [h.target] at hstep'
      exact ⟨_, hstep', { (h.enters .ended hother).returns _ with lock := rfl }⟩
  | abandons other hplace =>
      have hother := hne other hconcerns
      exact ⟨_, .abandons s' other ((h.place other hother).trans hplace),
        { (h.enters .ended hother).returns _ with lock := rfl }⟩
  | expects other n hplace =>
      have hother := hne other hconcerns
      exact ⟨_, .expects s' other n ((h.place other hother).trans hplace),
        (h.changes hnodup (·.expect other) (·.expect other)
          fun k _ => k.forget_expect_ne id other hother).enters _ hother⟩
  | admits other n hplace hflag =>
      have hother := hne other hconcerns
      refine ⟨_, .admits s' other n ((h.place other hother).trans hplace) ?_, h.enters _ hother⟩
      rw [h.client, flag?_forgetAll, hflag]
  | repels other n hplace hflag =>
      have hother := hne other hconcerns
      have hstep' := Step.repels s' other n ((h.place other hother).trans hplace) (by
        rw [h.client, flag?_forgetAll, hflag])
      rw [h.target] at hstep'
      exact ⟨_, hstep', h.leaves hnodup _ hother⟩
  | writes other n network p hplace =>
      have hother := hne other hconcerns
      refine ⟨_, .writes s' other n network p ?_, h.writes hnodup network p hother⟩
      rw [h.place other hother]
      exact hplace
  | interrupts other n p frame hplace hframe =>
      have hother := hne other hconcerns
      have hframe' := hframe
      rw [← hlimit] at hframe'
      refine ⟨_, .interrupts s' other n p frame (by rwa [h.place other hother]) hframe', ?_⟩
      rw [interrupts_eq s other n p hframe, interrupts_eq s' other n p hframe']
      exact h.changes_leaves hnodup (·.fill frame) _ hother fun _ => rfl
  | takes other n m r hplace hmail =>
      have hother := hne other hconcerns
      refine ⟨_, .takes s' other n m r ((h.place other hother).trans hplace) ?_,
        h.leaves hnodup _ hother⟩
      rw [h.mail]
      exact List.mem_filter.mpr ⟨hmail, bne_iff_ne.mpr hother⟩
  | cancels other n hplace =>
      have hother := hne other hconcerns
      refine ⟨_, .cancels s' other n ?_, h.leaves hnodup _ hother⟩
      rw [h.place other hother]
      exact hplace
  | flushes n count =>
      exact ⟨_, .flushes s' n count, h.changes hnodup _ _ fun _ _ => rfl⟩
  | arrives n octets =>
      exact ⟨_, .arrives s' n octets, h.changes hnodup _ _ fun _ _ => rfl⟩
  | frame n k body rest hk hread hfound =>
      have hstep' := Step.frame s' n (k.forget id) body rest (h.connection? hk) hread
        (hlimit ▸ hfound)
      refine ⟨_, hstep', h.settles hnodup _ _ ?_⟩
      rw [h.target]
      exact Connection.acceptValue_forget { k with inbox := rest } id s.client.target body
  | breaks n k cause rest hk hread hfound =>
      have hstep' := Step.breaks s' n (k.forget id) cause rest (h.connection? hk) hread
        (hlimit ▸ hfound)
      exact ⟨_, hstep', h.changes hnodup _ _ fun _ _ => rfl⟩
  | rejects n k x rest hk hread hfound hanswer =>
      have hstep' := Step.rejects s' n (k.forget id) x rest (h.connection? hk) hread
        (hlimit ▸ hfound) hanswer
      exact ⟨_, hstep', h.shuts hnodup { k with inbox := rest }⟩
  | ends n k hk hread =>
      exact ⟨_, .ends s' n (k.forget id) (h.connection? hk) hread, h.shuts hnodup k⟩
  | closesNone hlock hnone =>
      exact ⟨s', .closesNone s' (h.lock.trans hlock) (hslot.trans hnone), h⟩
  | closes n hlock hsome =>
      refine ⟨_, .closes s' n (h.lock.trans hlock) (hslot.trans hsome), { h with
        client := ?_
        leaving := congrArg (n :: ·) h.leaving }⟩
      rw [h.client]
      rfl
  | marks n hleaving =>
      refine ⟨_, .marks s' n (h.leaving ▸ hleaving), { h.changes (n := n) hnodup .mark .mark
        fun _ _ => rfl with
          leaving := congrArg (List.erase · n) h.leaving
          swept := congrArg (n :: ·) h.swept }⟩
  | fails n k other hswept hk =>
      have hother : other ≠ id := by
        rintro rfl
        exact Bool.false_ne_true (hconcerns.symm.trans (beq_self_eq_true other))
      have hstep' := Step.fails s' n (k.forget id) other (h.swept ▸ hswept) (h.connection? hk)
      refine ⟨_, hstep', h.settles hnodup _ _ ?_⟩
      rw [h.target]
      exact k.fail_forget id other s.client.target hother
  | drops n hslot' hleaving hplace =>
      refine ⟨_, .drops s' n (hslot ▸ hslot') (h.leaving ▸ hleaving) fun other => ?_, { h with
        client := ?_ }⟩
      · by_cases hother : other = id
        · rw [hother, h.idle]
          exact (Option.some_ne_none n).symm
        · rw [h.place other hother]
          exact hplace other
      · exact (congrArg (without · n) h.client).trans (s.client.forgetAll_without id n).symm

/-- The limit and the target are not changed by anybody. -/
theorem limit_of_step (hstep : Step s e t) :
    t.client.limit = s.client.limit ∧ t.client.target = s.client.target := by
  cases hstep with
  | writes other n network p hwriter =>
      rw [writes_eq]
      cases Frame.encode s.client.limit p.toText [] with
      | error _ => exact ⟨rfl, rfl⟩
      | ok frame =>
          cases network.writeFault with
          | some fault => exact ⟨rfl, rfl⟩
          | none => cases p.isEvent <;> exact ⟨rfl, rfl⟩
  | _ => exact ⟨rfl, rfl⟩

/-- If a call that has a connection writes no frame, the others come by the same turns to the same
    without it. -/
theorem Omits.run (h : Omits id s s') (hinv : Inv s) (hrun : Run s es t)
    (hbegun : (s.place id).isBegun = true)
    (hlong : ∀ e ∈ es, ∀ p, e.packet? id = some p → s.client.limit < p.toText.length) :
    ∃ t', Run s' (es.filter fun e => !e.concerns id) t' ∧ Omits id t t' := by
  induction hrun generalizing s' with
  | nil s => exact ⟨s', .nil s', h⟩
  | @cons s t u e es hstep hrun ih =>
      have hinv' := inv_step s t e hinv hstep
      have hlater : ∀ e ∈ es, ∀ p, e.packet? id = some p → t.client.limit < p.toText.length := by
        rw [(limit_of_step hstep).1]
        exact fun e he => hlong e (List.mem_cons_of_mem _ he)
      cases hconcerns : e.concerns id with
      | true =>
          -- The turn is left out, and the world without the call stays where it is.
          rcases h.step_self hinv hstep hconcerns hbegun (hlong e List.mem_cons_self) with
            ⟨homits, hbegun'⟩
          rw [List.filter_cons_of_neg (by rw [hconcerns]; exact Bool.false_ne_true)]
          exact ih homits hinv' hbegun' hlater
      | false =>
          rcases h.step hinv hstep hconcerns with ⟨t', hstep', homits⟩
          have hcaller : e.caller? ≠ some id := fun hc =>
            Bool.false_ne_true (hconcerns.symm.trans (concerns_of_caller hc))
          have hbegun' : (t.place id).isBegun = true := by
            rwa [(step_of_caller_ne hstep hcaller).1]
          rcases ih homits hinv' hbegun' hlater with ⟨u', hrun', homits'⟩
          rw [List.filter_cons_of_pos (by rw [hconcerns]; rfl)]
          exact ⟨u', .cons hstep' hrun', homits'⟩

/-- Once the call is over, what is left of the client is the client. -/
theorem Omits.client_of_place (h : Omits id s s') (hinv : Inv s)
    (hplace : (s.place id).socket? = none) : s'.client = s.client :=
  h.client.trans (s.client.forgetAll_of_unheld id hinv.nodup (not_waits_of_place hinv hplace))

end Client

end Gateway
