import Gateway.Proofs.Client.Quiet

/-!
# Operations Are Turns That Nobody Interrupts

Whatever the operations do to a client one after another, the parties on it can do by turns. Each
operation leads from a quiet world to a quiet world. What comes in from the network, closing and
giving up are put together of what settles calls and lets connections go. A call has more turns: it
gets a connection, puts its waiter in, looks for the mark and writes its packet. In between the
world is not quiet, but only by that one call, which is what `Alone` says.

Two things the operations leave to whoever uses them are asked for here: that no two calls have the
same name, and that a socket that is opened was not opened before.

## Main definitions

* `Operation`: What is asked of a client, or comes to it.
* `perform`, `performAll`: What one operation does, and many.
* `Operation.Turns`: The turns that an operation takes.
* `Alone`: A world that is quiet but for one call.
* `Performs`: A row of turns that does what an operation does.

## Theorems

* `alone_of_acquire`, `leads_of_refused`: A call gets a connection, or none.
* `perform_leads`: Every operation is a row of turns, and of which.
* `performAll_leads`, `performAll_reaches`: So is every row of operations, on a new client and on
  from there.
* `perform_turns`: The turns of an operation that comes after others.
-/

namespace Gateway

/-- The socket that is opened. -/
def Effect.opened? : Effect → Option Nat
  | .opened socket => some socket
  | _ => none

/-- The call that is told of its end. -/
def Effect.settled? : Effect → Option Settled
  | .settled call => some call
  | _ => none

namespace Client

/-- What is asked of a client by callers, or comes to it from the network. -/
inductive Operation where
  | send (network : Network) (id pattern : String) (payload : Json)
  -- The name is nothing that is sent. It is there to tell one call from another.
  | emit (network : Network) (name pattern : String) (payload : Json)
  | close
  | cancel (id : String)
  -- What comes in over a socket, and the end of its stream.
  | receive (socket : Nat) (octets : Bytes)
  | finish (socket : Nat)

/-- The name of the call that an operation makes. -/
def Operation.name? : Operation → Option String
  | .send _ id _ _ => some id
  | .emit _ name _ _ => some name
  | _ => none

/-- What an operation does. A call that has ended by then is told so last. -/
def perform (c : Client) : Operation → Client × List Effect
  | .send network id pattern payload =>
    match c.send network id pattern payload with
    | (c, effects, result) => (c, effects ++ result.toList.map fun r => .settled ⟨id, r⟩)
  | .emit network name pattern payload =>
    match c.emit network pattern payload with
    | (c, effects, r) => (c, effects ++ [.settled ⟨name, r⟩])
  | .close => c.close
  | .cancel id => c.cancel id
  | .receive socket octets => c.receive socket octets
  | .finish socket => c.finish socket

/-- What operations do, one after another. -/
def performAll : Client → List Operation → Client × List Effect
  | c, [] => (c, [])
  | c, o :: rest =>
    let (c, now) := c.perform o
    let (c, later) := c.performAll rest
    (c, now ++ later)

/-- The turns that an operation takes in a world. A call comes to write its packet unless it is
    refused. What ends a connection begins with the end of it and goes on with failing everybody who
    then waits on it, and what comes in is taken frame by frame up to its end. -/
def Operation.Turns (s : World) (es : List Event) : Operation → Prop
  | .send network id pattern payload => .writes id network (.call id pattern payload) ∈ es
    ∨ ∃ kind text, network.dial = .failed kind text ∧ .refused id kind text ∈ es
  | .emit network name pattern payload => .writes name network (.event pattern payload) ∈ es
    ∨ ∃ kind text, network.dial = .failed kind text ∧ .refused name kind text ∈ es
  | .close => ∀ n k, s.client.slot = some n → s.client.connection? n = some k →
    ∃ later, es = .closes :: .marks n :: later ∧ Sweeps n k.ids later
  | .cancel id => ∀ n, (s.place id).socket? = some n → .cancels id ∈ es
  | .receive n octets => ∀ k, s.client.connection? n = some k → k.isRead = true →
    ∃ later, es = .arrives n octets :: later
      ∧ Takes s.client.target n k (Frame.feed s.client.limit k.inbox octets) later
  | .finish n => ∀ k, s.client.connection? n = some k → k.isRead = true →
    ∃ later, es = .ends n :: later ∧ Sweeps n k.ids later

variable {s t : World} {e : Event} {es : List Event} {id : String} {n : Nat}

/-! ## Calls -/

/-- One call has gone on to a place, with turns of its own only: the others wait where they did. -/
structure Alone (s : World) (es : List Event) (t : World) (id : String) (p : Place)
    (opened : List Nat) : Prop where
  run : Run s es t
  unlocked : t.lock = none
  left : t.leaving = []
  place : t.place = (s.enters id p).place
  opened : t.opened = s.opened ++ opened
  -- No call has returned.
  results : t.results = s.results
  swept : t.swept = s.swept
  waits : ∀ other m, other ≠ id → s.client.Waits other m → t.client.Waits other m

variable {p q : Place} {opened : List Nat}

theorem Alone.place_self (h : Alone s es t id p opened) : t.place id = p := by
  rw [h.place, enters_self]

theorem Alone.place_ne (h : Alone s es t id p opened) (other : String) (hother : other ≠ id) :
    t.place other = s.place other := by
  rw [h.place, enters_ne s id other p hother]

/-- The call goes on, and may have changed its connection without a loss to the others. -/
theorem Alone.enters (h : Alone s es t id p opened) (c : Client)
    (hc : ∀ other m, other ≠ id → t.client.Waits other m → c.Waits other m)
    (hstep : Step t e ({ t with client := c }.enters id q)) :
    Alone s (es ++ [e]) ({ t with client := c }.enters id q) id q opened where
  run := h.run.append (.single hstep)
  unlocked := h.unlocked
  left := h.left
  place := by
    have hplaces := congrArg World.place (enters_enters s id p q)
    simp only [World.enters, h.place] at hplaces ⊢
    exact hplaces
  opened := h.opened
  results := h.results
  swept := h.swept
  waits := fun other m hother hwaits => hc other m hother (h.waits other m hother hwaits)

/-- The call is over, and may have changed its connection without a loss to the others. -/
theorem Alone.leads_leaves (h : Alone s es t id p opened) (hquiet : Quiet s) (c : Client)
    (r : CallResult)
    (hc : ∀ other m, other ≠ id → t.client.Waits other m → c.Waits other m)
    (hstep : Step t e ({ t with client := c }.leaves id n [r])) :
    Leads s (es ++ [e]) ({ t with client := c }.leaves id n [r]) opened [⟨id, r⟩] [id] where
  run := h.run.append (.single hstep)
  quiet := by
    refine ⟨h.unlocked, h.left, fun other m hm => ?_⟩
    rcases socket?_leaves _ other m hm with ⟨hother, hm⟩
    change (t.place other).socket? = some m at hm
    rw [h.place_ne other hother] at hm
    rcases hquiet.settled other m hm with ⟨hwaiting, hwaits⟩
    refine ⟨(leaves_ne _ id other n _ hother).trans ((h.place_ne other hother).trans hwaiting), ?_⟩
    exact waits_forget _ id m (fun hc => hother hc.symm)
      (hc other m hother (h.waits other m hother hwaits))
  opened := h.opened
  results := congrArg (fun results : List Settled => results ++ [⟨id, r⟩]) h.results
  idle := by
    intro other hother hidle
    have hne : other ≠ id := fun hc => hother (List.mem_singleton.mpr hc)
    rw [leaves_ne _ id other n _ hne]
    exact (h.place_ne other hne).trans hidle
  swept := fun m hm => h.swept ▸ hm

/-- The call waits for its result. -/
theorem Alone.leads_waiting (h : Alone s es t id (.waiting n) opened) (hquiet : Quiet s)
    (hin : t.client.Waits id n) : Leads s es t opened [] [id] where
  run := h.run
  quiet := by
    refine ⟨h.unlocked, h.left, fun other m hm => ?_⟩
    by_cases hother : other = id
    · rw [hother, h.place_self] at hm ⊢
      rw [← Option.some.inj hm]
      exact ⟨rfl, hin⟩
    · rw [h.place_ne other hother] at hm ⊢
      exact (hquiet.settled other m hm).imp_right (h.waits other m hother)
  opened := h.opened
  results := h.results.trans (List.append_nil _).symm
  idle := by
    intro other hother hidle
    exact (h.place_ne other fun hc => hother (List.mem_singleton.mpr hc)).trans hidle
  swept := fun m hm => h.swept ▸ hm

theorem waits_connect (c : Client) (other : String) (m : Nat) (hnew : n ∉ c.sockets)
    (h : c.Waits other m) : (c.connect n).Waits other m := by
  rcases h with ⟨k, hk, hheld⟩
  have hm : m ≠ n := fun hc => hnew (hc ▸ c.mem_sockets m k hk)
  exact ⟨k, (c.connection?_connect n m hnew).trans ((if_neg hm).trans hk), hheld⟩

theorem not_waits_connect (c : Client) (hnew : n ∉ c.sockets) : ¬ (c.connect n).Waits id n := by
  rintro ⟨k, hk, hheld⟩
  rw [c.connection?_connect n n hnew, if_pos rfl] at hk
  rw [← Option.some.inj hk] at hheld
  exact Bool.false_ne_true hheld

/-- A call that gets a connection has found one or made one. -/
theorem alone_of_acquire (dial : Dial) (c : Client) (effects : List Effect) (h : Inv s)
    (hquiet : Quiet s) (hidle : s.place id = .idle)
    (hacquire : s.client.acquire dial = (c, effects, .ok n))
    (hnew : ∀ m ∈ effects.filterMap Effect.opened?, m ∉ s.opened) :
    ∃ es t, Alone s es t id (.given n) (effects.filterMap Effect.opened?) ∧ t.client = c
      ∧ c.flag? n = some true ∧ (¬ c.Waits id n) ∧ effects.filterMap Effect.settled? = [] := by
  -- Who has not begun waits nowhere, and nobody waits on a connection that was just made.
  have hwaits := not_waits_of_place h (by rw [hidle]; rfl)
  cases hready : s.client.ready? with
  | some m =>
      rw [s.client.acquire_of_ready m dial hready] at hacquire
      simp only [Prod.mk.injEq, Except.ok.injEq] at hacquire
      rcases hacquire with ⟨rfl, rfl, rfl⟩
      have hstep := Step.finds s id m hidle hquiet.unlocked hready
      exact ⟨_, _, ⟨.single hstep, hquiet.unlocked, hquiet.left, rfl, (List.append_nil _).symm,
        rfl, rfl, fun _ _ _ hwaits => hwaits⟩, rfl, ((ready?_eq_some_iff _ _).mp hready).2,
        hwaits m, rfl⟩
  | none =>
      -- The call takes the lock and connects, with nobody in between.
      cases dial with
      | failed kind text =>
          rw [s.client.acquire_of_failed kind text hready] at hacquire
          simp only [Prod.mk.injEq, reduceCtorEq, and_false] at hacquire
      | connected m =>
          rw [s.client.acquire_of_vacant m hready] at hacquire
          simp only [Prod.mk.injEq, Except.ok.injEq] at hacquire
          rcases hacquire with ⟨rfl, rfl, rfl⟩
          have hfresh : m ∉ s.opened := hnew m List.mem_cons_self
          have hsocket : m ∉ s.client.sockets := fun hc => hfresh (h.opened m hc)
          have hdials := Step.dials s id hidle hquiet.unlocked hready
          have hconnects := Step.connects (s.locks id) id m
            (enters_self s id .connecting) hfresh
          have hplace := congrArg World.place (enters_enters s id .connecting (.given m))
          have hopen := ((ready?_eq_some_iff _ _).mp (s.client.ready?_connect m hsocket)).2
          exact ⟨_, _, ⟨.cons hdials (.single hconnects), rfl, hquiet.left, hplace, rfl, rfl, rfl,
            fun other l _ hwaits => waits_connect s.client other l hsocket hwaits⟩, rfl, hopen,
            not_waits_connect s.client hsocket, rfl⟩

theorem quits_locks (s : World) (id other : String) (results : List CallResult) :
    ((s.locks id).quits id results).place other = (s.enters id .ended).place other := by
  have hplaces := congrArg World.place (enters_enters s id .connecting .ended)
  exact congrFun hplaces other

/-- A call that gets none has found none, and was refused. -/
theorem leads_of_refused (dial : Dial) (c : Client) (effects : List Effect) (x : CallError)
    (hquiet : Quiet s) (hidle : s.place id = .idle)
    (hacquire : s.client.acquire dial = (c, effects, .error x)) :
    ∃ kind text t, dial = .failed kind text ∧ effects = []
      ∧ Leads s [.dials id, .refused id kind text] t [] [⟨id, .error x⟩] [id] ∧ t.client = c := by
  cases hready : s.client.ready? with
  | some m =>
      rw [s.client.acquire_of_ready m dial hready] at hacquire
      simp only [Prod.mk.injEq, reduceCtorEq, and_false] at hacquire
  | none =>
      cases dial with
      | connected m =>
          rw [s.client.acquire_of_vacant m hready] at hacquire
          simp only [Prod.mk.injEq, reduceCtorEq, and_false] at hacquire
      | failed kind text =>
          rw [s.client.acquire_of_failed kind text hready] at hacquire
          simp only [Prod.mk.injEq, Except.error.injEq] at hacquire
          rcases hacquire with ⟨rfl, rfl, rfl⟩
          have hdials := Step.dials s id hidle hquiet.unlocked hready
          have hrefused := Step.refused (s.locks id) id kind text
            (enters_self s id .connecting)
          refine ⟨kind, text, _, rfl, rfl, ⟨.cons hdials (.single hrefused),
            ⟨rfl, hquiet.left, fun other m hm => ?_⟩, (List.append_nil _).symm, rfl,
            fun other hother hidle' => ?_, fun _ hm => hm⟩, rfl⟩
          · rw [quits_locks] at hm ⊢
            by_cases hother : other = id
            · rw [hother, enters_self] at hm
              exact absurd hm (Option.some_ne_none m).symm
            · rw [enters_ne s id other _ hother] at hm ⊢
              exact hquiet.settled other m hm
          · rw [quits_locks, enters_ne s id other _ fun hc => hother (List.mem_singleton.mpr hc)]
            exact hidle'

/-! ## Operations -/

theorem opened?_settled (calls : List Settled) :
    (calls.map Effect.settled).filterMap Effect.opened? = [] := by
  rw [List.filterMap_map]
  exact List.filterMap_eq_nil_iff.mpr fun _ _ => rfl

theorem settled?_settled (calls : List Settled) :
    (calls.map Effect.settled).filterMap Effect.settled? = calls := by
  rw [List.filterMap_map]
  exact List.filterMap_some

theorem opened?_closed (sockets : List Nat) :
    (sockets.map Effect.closed).filterMap Effect.opened? = [] := by
  rw [List.filterMap_map]
  exact List.filterMap_eq_nil_iff.mpr fun _ _ => rfl

theorem settled?_closed (sockets : List Nat) :
    (sockets.map Effect.closed).filterMap Effect.settled? = [] := by
  rw [List.filterMap_map]
  exact List.filterMap_eq_nil_iff.mpr fun _ _ => rfl

theorem opened?_backlog (c : Client) (n : Nat) :
    (c.backlog n).filterMap Effect.opened? = [] := by
  rw [backlog]
  cases (c.outbox n).isEmpty <;> rfl

theorem settled?_backlog (c : Client) (n : Nat) :
    (c.backlog n).filterMap Effect.settled? = [] := by
  rw [backlog]
  cases (c.outbox n).isEmpty <;> rfl

/-- A row of turns that does to a client what an operation does. -/
def Performs (s : World) (es : List Event) (did : Client × List Effect) (names : List String) :
    Prop :=
  ∃ t, Leads s es t (did.2.filterMap Effect.opened?) (did.2.filterMap Effect.settled?) names
    ∧ t.client = did.1

/-- After everything else, what nobody waits on is let go. What is told last is told all the
    same. -/
theorem performs_of_leads (effects last : List Effect) (c : Client) (names : List String)
    (h : Inv s) (hleads : Leads s es t ((effects ++ last).filterMap Effect.opened?)
      ((effects ++ last).filterMap Effect.settled?) names) (hclient : t.client = c) :
    Performs s (es ++ c.idleSockets.map .drops) (c.letGo.1, effects ++ c.letGo.2 ++ last)
      names := by
  have hinv := inv_of_reaches h hleads.reaches
  rcases letGo_leads hinv hleads.quiet with ⟨u, hgone, hleft⟩
  have hall := hleads.trans hgone
  rw [List.append_nil, List.append_nil, List.append_nil, hclient] at hall
  refine ⟨u, ?_, by rw [hleft, hclient]⟩
  simp only [← hclient, letGo_eq t.client hinv.nodup, List.filterMap_append, opened?_closed,
    settled?_closed, List.append_nil] at hall ⊢
  exact hall

theorem performs_onConnection (c : Client) (k : Connection)
    (f : Connection → Connection × List Settled) (h : Inv s) (hk : c.connection? n = some k)
    (hleads : Leads s es t [] (f k).2 []) (hclient : t.client = c.update n fun _ => (f k).1) :
    ∃ sockets : List Nat, Performs s (es ++ sockets.map .drops) (c.onConnection n f) [] := by
  have hperforms := performs_of_leads ((f k).2.map .settled) [] _ [] h (by
    rw [List.append_nil, opened?_settled, settled?_settled]
    exact hleads) hclient
  rw [List.append_nil] at hperforms
  simp only [onConnection, hk]
  exact ⟨_, hperforms⟩

theorem performs_nothing (hquiet : Quiet s) (names : List String) :
    Performs s [] (s.client, []) names :=
  ⟨s, leads_refl hquiet names, rfl⟩

/-- To let connections go is no turn of a reader. -/
theorem filter_reads_drops (sockets : List Nat) :
    (sockets.map Event.drops).filter (Event.reads n) = [] := by
  refine List.filter_eq_nil_iff.mpr fun e he => ?_
  rcases List.mem_map.mp he with ⟨m, _, rfl⟩
  exact Bool.false_ne_true

theorem Sweeps.drops {ids : List String} (h : Sweeps n ids es) (sockets : List Nat) :
    Sweeps n ids (es ++ sockets.map .drops) where
  fails := fun id hid => List.mem_append_left _ (h.fails id hid)
  silent := by rw [List.filter_append, h.silent, filter_reads_drops, List.append_nil]

theorem Takes.drops {target : Target} {k : Connection} {found : Frame.Drained}
    (h : Takes target n k found es) (sockets : List Nat) :
    Takes target n k found (es ++ sockets.map .drops) where
  reads := by rw [List.filter_append, h.reads, filter_reads_drops, List.append_nil]
  fails := fun e he hanswer id hid => List.mem_append_left _ (h.fails e he hanswer id hid)

theorem receive_performs (octets : Bytes) (h : Inv s) (hquiet : Quiet s) :
    ∃ es, Performs s es (s.client.receive n octets) []
      ∧ (Operation.receive n octets).Turns s es := by
  rw [receive]
  cases hk : s.client.connection? n with
  | none =>
      simp only [onConnection, hk]
      exact ⟨[], performs_nothing hquiet [],
        fun k hk' => absurd (hk.symm.trans hk') (Option.some_ne_none k).symm⟩
  | some k =>
      cases hread : k.isRead with
      | false =>
          -- A reader that has ended takes nothing.
          have hnone : k.receive s.client.target s.client.limit octets = (k, []) := by
            simp only [Connection.receive, hread, Bool.not_false, if_true]
          rcases leads_unchanged k h hquiet hk with ⟨t, hleads, hclient⟩
          rcases performs_onConnection s.client k (·.receive s.client.target s.client.limit octets)
            h hk (by rw [hnone]; exact hleads) (by rw [hnone]; exact hclient) with
            ⟨sockets, hperforms⟩
          refine ⟨_, hperforms, fun k' hk' hread' => ?_⟩
          rw [← Option.some.inj (hk.symm.trans hk'), hread] at hread'
          exact absurd hread' Bool.false_ne_true
      | true =>
          have hstep := Step.arrives s n octets
          have hcame := leads_of_waits hquiet (.single hstep)
            (fun _ m => waits_update s.client _ m fun _ hheld => hheld) rfl rfl hquiet.left rfl rfl
            fun _ hm => hm
          have hk' := s.client.connection?_update_self n
            (fun k => { k with inbox := k.inbox ++ octets }) k hk
          rcases drain_leads ((k.inbox ++ octets).length + 1) _
            (inv_of_reaches h hcame.reaches) hcame.quiet hk' hread _ rfl with
            ⟨es, t, hdrained, htakes, hclient⟩
          have hreceive := k.receive_of_isRead s.client.target s.client.limit octets hread
          rcases performs_onConnection s.client k (·.receive s.client.target s.client.limit octets)
            h hk (by rw [hreceive]; exact hcame.trans hdrained)
            (by rw [hreceive, hclient, client_changes, update_update]; rfl) with
            ⟨sockets, hperforms⟩
          refine ⟨_, hperforms, fun l hl _ => ⟨es ++ sockets.map .drops, rfl, ?_⟩⟩
          rw [← Option.some.inj (hk.symm.trans hl)]
          exact ⟨(htakes.drops sockets).reads, (htakes.drops sockets).fails⟩

theorem finish_performs (h : Inv s) (hquiet : Quiet s) :
    ∃ es, Performs s es (s.client.finish n) [] ∧ (Operation.finish n).Turns s es := by
  rw [finish]
  cases hk : s.client.connection? n with
  | none =>
      simp only [onConnection, hk]
      exact ⟨[], performs_nothing hquiet [],
        fun k hk' => absurd (hk.symm.trans hk') (Option.some_ne_none k).symm⟩
  | some k =>
      cases hread : k.isRead with
      | false =>
          rcases leads_unchanged k h hquiet hk with ⟨t, hleads, hclient⟩
          rcases performs_onConnection s.client k
            (fun k => if k.isRead then k.finish s.client.target else (k, [])) h hk
            (by rw [hread]; exact hleads) (by rw [hread]; exact hclient) with ⟨sockets, hperforms⟩
          refine ⟨_, hperforms, fun k' hk' hread' => ?_⟩
          rw [← Option.some.inj (hk.symm.trans hk'), hread] at hread'
          exact absurd hread' Bool.false_ne_true
      | true =>
          rcases shuts_leads k k.inbox h hquiet hk (Step.ends s n k hk hread) with
            ⟨es, t, hleads, hsweeps, hclient⟩
          rcases performs_onConnection s.client k
            (fun k => if k.isRead then k.finish s.client.target else (k, [])) h hk
            (by rw [hread]; exact hleads) (by rw [hread]; exact hclient) with ⟨sockets, hperforms⟩
          refine ⟨_, hperforms, fun l hl _ => ⟨es ++ sockets.map .drops, rfl, ?_⟩⟩
          rw [← Option.some.inj (hk.symm.trans hl)]
          exact hsweeps.drops sockets

theorem close_performs (h : Inv s) (hquiet : Quiet s) :
    ∃ es, Performs s es s.client.close [] ∧ Operation.close.Turns s es := by
  rw [close]
  cases hslot : s.client.slot with
  | none =>
      exact ⟨[], performs_nothing hquiet [],
        fun n _ hn => absurd (hslot.symm.trans hn) (Option.some_ne_none n).symm⟩
  | some n =>
      rcases s.client.exists_connection n (h.slot n hslot) with ⟨k, hk⟩
      -- The connection is taken out of the slot, then marked, and then its waiters are failed.
      have hcloses := Step.closes s n hquiet.unlocked hslot
      have hmarks := Step.marks { s with
        client := { s.client with slot := none }, leaving := n :: s.leaving } n List.mem_cons_self
      have hleft : (n :: s.leaving).erase n = [] := by
        rw [List.erase_cons_head, hquiet.left]
      have hmarked := leads_of_waits hquiet (.cons hcloses (.single hmarks))
        (fun _ m => waits_update s.client .mark m fun _ hheld => hheld) rfl rfl hleft rfl rfl
        fun _ hm => List.mem_cons_of_mem _ hm
      rcases failAll_leads k.ids k.mark (inv_of_reaches h hmarked.reaches) hmarked.quiet
        (s.client.connection?_update_self n .mark k hk) List.mem_cons_self with
        ⟨es, t, hswept, hsweeps, hclient⟩
      rcases performs_onConnection { s.client with slot := none } k
        (fun k => k.mark.sweep s.client.target) h hk (hmarked.trans hswept) (hclient.trans
          (update_update { s.client with slot := none } n _ _)) with ⟨sockets, hperforms⟩
      refine ⟨_, hperforms, fun m l hm hl => ⟨es ++ sockets.map .drops, ?_, ?_⟩⟩
      · rw [← Option.some.inj (hslot.symm.trans hm)]
        rfl
      · rw [← Option.some.inj (hslot.symm.trans hm)] at hl ⊢
        rw [← Option.some.inj (hk.symm.trans hl)]
        exact hsweeps.drops sockets

/-- A waiter is taken away from every connection by taking it away where the call waits. -/
theorem forget_everywhere (id : String) (h : Inv s)
    (hother : ∀ m k, m ≠ n → s.client.connection? m = some k → k.held id = none) :
    (s.client.connections.map fun e => (e.1, e.2.forget id))
      = (s.client.update n (·.forget id)).connections := by
  rw [update]
  refine List.map_congr_left fun e he => ?_
  by_cases hm : e.1 = n
  · rw [if_pos (beq_iff_eq.mpr hm)]
  · rw [if_neg fun hc => hm (beq_iff_eq.mp hc)]
    have hk := s.client.connection?_of_mem e.1 e.2 h.nodup he
    exact congrArg (Prod.mk e.1) (Connection.forget_of_unheld e.2 id (hother e.1 e.2 hm hk))

theorem cancel_performs (id : String) (h : Inv s) (hquiet : Quiet s) :
    ∃ es, Performs s es (s.client.cancel id) [] ∧ (Operation.cancel id).Turns s es := by
  have hheld : ∀ m k, s.client.connection? m = some k → (s.place id).socket? ≠ some m →
      k.held id = none := fun m k hk hne =>
    Option.not_isSome_iff_eq_none.mp fun hc => hne (h.waiting m k id hk hc)
  have hperforms : ∃ es t, Leads s es t [] [] [] ∧ (Operation.cancel id).Turns s es
      ∧ t.client = { s.client with
        connections := s.client.connections.map fun e => (e.1, e.2.forget id) } := by
    cases hplace : (s.place id).socket? with
    | none =>
        -- A call that uses no connection waits nowhere, over this socket or any other.
        have hnone := forget_everywhere (n := 0) id h fun m k _ hk =>
          hheld m k hk (by rw [hplace]; exact (Option.some_ne_none m).symm)
        have hgone : ¬ s.client.Waits id 0 := fun ⟨k, hk, hin⟩ => by
          rw [hheld 0 k hk (by rw [hplace]; exact (Option.some_ne_none 0).symm)] at hin
          exact Bool.false_ne_true hin
        rw [hnone, update_forget s.client h.nodup hgone]
        exact ⟨[], s, leads_refl hquiet [],
          fun m hm => absurd (hplace.symm.trans hm) (Option.some_ne_none m).symm, rfl⟩
    | some n =>
        have hsome := forget_everywhere (n := n) id h fun m k hm hk =>
          hheld m k hk (by rw [hplace]; exact fun hc => hm (Option.some.inj hc).symm)
        have hstep := Step.cancels s id n hplace
        refine ⟨_, _, ⟨.single hstep, ⟨hquiet.unlocked, hquiet.left, fun other m hm => ?_⟩,
          (List.append_nil _).symm, rfl, fun other _ hidle => ?_, fun _ hm => hm⟩,
          fun _ _ => List.mem_singleton_self _, ?_⟩
        · rcases socket?_leaves _ other m hm with ⟨hother, hm⟩
          rcases hquiet.settled other m hm with ⟨hwaiting, hwaits⟩
          exact ⟨(leaves_ne _ id other n _ hother).trans hwaiting,
            waits_forget _ id m (fun hc => hother hc.symm) hwaits⟩
        · refine (leaves_ne _ id other n _ ?_).trans hidle
          rintro rfl
          rw [hidle] at hplace
          exact absurd hplace (Option.some_ne_none n).symm
        · rw [client_leaves, hsome]
          rfl
  rcases hperforms with ⟨es, t, hleads, hturns, hclient⟩
  have hperforms := performs_of_leads [] [] _ [] h hleads hclient
  rw [List.append_nil] at hperforms
  exact ⟨_, hperforms, fun m hm => List.mem_append_left _ (hturns m hm)⟩

/-- A request that gets a connection puts its waiter in and sees no mark. -/
theorem alone_admitted (dial : Dial) (c : Client) (effects : List Effect) (h : Inv s)
    (hquiet : Quiet s) (hidle : s.place id = .idle)
    (hacquire : s.client.acquire dial = (c, effects, .ok n))
    (hnew : ∀ m ∈ effects.filterMap Effect.opened?, m ∉ s.opened) :
    ∃ es t, Alone s es t id (.admitted n) (effects.filterMap Effect.opened?)
      ∧ t.client = c.update n (·.expect id) ∧ (c.update n (·.expect id)).Waits id n
      ∧ effects.filterMap Effect.settled? = [] := by
  rcases alone_of_acquire dial c effects h hquiet hidle hacquire hnew with
    ⟨es, t, hgiven, hclient, hflag, _, hsettled⟩
  have hentered := hgiven.enters (t.client.update n (·.expect id))
    (fun other m hother hwaits => waits_update _ _ m (fun k hheld => by
      rwa [Connection.held_expect_ne k id other fun hc => hother hc.symm]) hwaits)
    (Step.expects t id n hgiven.place_self)
  have hopen : (t.client.update n (·.expect id)).flag? n = some true := by
    rw [flag?_update_of_isOpen t.client n n (·.expect id) fun _ _ => rfl, hclient]
    exact hflag
  have hadmitted := hentered.enters (q := .admitted n) _ (fun _ _ _ hwaits => hwaits)
    (Step.admits _ id n hentered.place_self hopen)
  rcases Option.map_eq_some_iff.mp hflag with ⟨k, hk, _⟩
  have hin : (c.update n (·.expect id)).Waits id n :=
    ⟨_, c.connection?_update_self n _ k hk, by rw [Connection.held_expect_self, Option.isSome_some]⟩
  exact ⟨_, _, hadmitted, by rw [← hclient]; rfl, hin, hsettled⟩

theorem mem_opened_append (effects after : List Effect) (m : Nat)
    (h : m ∈ effects.filterMap Effect.opened?) :
    m ∈ (effects ++ after).filterMap Effect.opened? := by
  rw [List.filterMap_append]
  exact List.mem_append_left _ h

/-- What is written opens nothing. -/
theorem opened?_wrote (c : Client) (frame : Bytes) :
    (c.backlog n ++ [Effect.wrote n frame]).filterMap Effect.opened? = [] := by
  rw [List.filterMap_append, opened?_backlog]
  rfl

theorem settled?_wrote (c : Client) (frame : Bytes) :
    (c.backlog n ++ [Effect.wrote n frame]).filterMap Effect.settled? = [] := by
  rw [List.filterMap_append, settled?_backlog]
  rfl

/-- A call that gets no connection is refused, and that is all. -/
theorem refused_performs (dial : Dial) (c : Client) (effects : List Effect) (x : CallError)
    (h : Inv s) (hquiet : Quiet s) (hidle : s.place id = .idle)
    (hacquire : s.client.acquire dial = (c, effects, .error x)) :
    ∃ es, Performs s es (c.letGo.1, effects ++ c.letGo.2 ++ [.settled ⟨id, .error x⟩]) [id]
      ∧ ∃ kind text, dial = .failed kind text ∧ .refused id kind text ∈ es := by
  rcases leads_of_refused dial c effects x hquiet hidle hacquire with
    ⟨kind, text, t, hdial, rfl, hleads, hclient⟩
  exact ⟨_, performs_of_leads [] [.settled ⟨id, .error x⟩] c [id] h hleads hclient, kind, text,
    hdial, List.mem_append_left _ (List.mem_cons_of_mem _ List.mem_cons_self)⟩

theorem send_performs (network : Network) (id pattern : String) (payload : Json) (h : Inv s)
    (hquiet : Quiet s) (hidle : s.place id = .idle)
    (hnew : ∀ m ∈ (s.client.perform (.send network id pattern payload)).2.filterMap
      Effect.opened?, m ∉ s.opened) :
    ∃ es, Performs s es (s.client.perform (.send network id pattern payload)) [id]
      ∧ (Operation.send network id pattern payload).Turns s es := by
  rcases hacquire : s.client.acquire network.dial with ⟨c, effects, x | n⟩
  · rcases refused_performs network.dial c effects x h hquiet hidle hacquire with
      ⟨es, hperforms, hrefused⟩
    refine ⟨es, ?_, Or.inr hrefused⟩
    simp only [perform, send, hacquire]
    exact hperforms
  · -- A packet that is not written takes the waiter away again, whatever the reason.
    have hfailed : ∀ d x, (∀ other m, other ≠ id → (c.update n (·.expect id)).Waits other m →
        d.Waits other m) → (c.update n (·.expect id)).write network n (.call id pattern payload)
          = (d, [], .error x) →
        ∃ es, Performs s es (s.client.perform (.send network id pattern payload)) [id]
          ∧ (Operation.send network id pattern payload).Turns s es := by
      intro d x hd hwrite
      simp only [perform, send, hacquire, hwrite] at hnew ⊢
      rcases alone_admitted network.dial c effects h hquiet hidle hacquire fun m hm =>
        hnew m (mem_opened_append _ _ m (mem_opened_append _ _ m (mem_opened_append _ _ m hm)))
        with ⟨es, t, hadmitted, hclient, _, hsettled⟩
      have hstep := Step.writes t id n network (.call id pattern payload)
        (Or.inl ⟨hadmitted.place_self, rfl⟩)
      simp only [World.writes, hclient, hwrite] at hstep
      have hleads := hadmitted.leads_leaves hquiet d (.error x)
        (fun other m hother hwaits => hd other m hother (hclient ▸ hwaits)) hstep
      have hperforms := performs_of_leads (effects ++ []) [.settled ⟨id, .error x⟩] _ [id] h (by
        simp only [List.filterMap_append, hsettled, List.append_nil]
        rw [show [Effect.settled ⟨id, .error x⟩].filterMap Effect.opened? = [] from rfl,
          List.append_nil]
        exact hleads) rfl
      exact ⟨_, hperforms,
        Or.inl (List.mem_append_left _ (List.mem_append_right _ (List.mem_singleton_self _)))⟩
    have hwritten := (c.update n (·.expect id)).write_cases n network (.call id pattern payload)
    rcases hwritten with ⟨x, _, hwrite⟩ | ⟨frame, kind, text, _, _, hwrite⟩ |
      ⟨frame, _, _, _, hwrite⟩
    · exact hfailed _ _ (fun _ _ _ hwaits => hwaits) hwrite
    · exact hfailed _ _ (fun _ m _ => waits_update _ (fun k => (k.fill frame).mark) m
        fun _ hheld => hheld) hwrite
    · -- It is written, and the call waits with its waiter in.
      simp only [perform, send, hacquire, hwrite] at hnew ⊢
      rcases alone_admitted network.dial c effects h hquiet hidle hacquire fun m hm =>
        hnew m (mem_opened_append _ _ m (mem_opened_append _ _ m (mem_opened_append _ _ m hm)))
        with ⟨es, t, hadmitted, hclient, hin, hsettled⟩
      have hstep := Step.writes t id n network (.call id pattern payload)
        (Or.inl ⟨hadmitted.place_self, rfl⟩)
      simp only [World.writes, hclient, hwrite] at hstep
      have hdrains : ∀ other m, (c.update n (·.expect id)).Waits other m →
          ((c.update n (·.expect id)).update n .drain).Waits other m := fun other m =>
        waits_update _ .drain m fun _ hheld => hheld
      have hwaiting := hadmitted.enters _
        (fun other m _ hwaits => hdrains other m (hclient ▸ hwaits)) hstep
      have hleads := hwaiting.leads_waiting hquiet (hdrains id n hin)
      generalize hwrote : (c.update n (·.expect id)).backlog n ++ [.wrote n frame] = wrote
      have hopened : wrote.filterMap Effect.opened? = [] := hwrote ▸ opened?_wrote _ frame
      have hnone : wrote.filterMap Effect.settled? = [] := hwrote ▸ settled?_wrote _ frame
      have hperforms := performs_of_leads (effects ++ wrote) [] _ [id] h (by
        rw [List.append_nil, List.filterMap_append, List.filterMap_append, hopened, hsettled,
          hnone, List.append_nil, List.append_nil]
        exact hleads) rfl
      exact ⟨_, hperforms,
        Or.inl (List.mem_append_left _ (List.mem_append_right _ (List.mem_singleton_self _)))⟩

theorem emit_performs (network : Network) (name pattern : String) (payload : Json) (h : Inv s)
    (hquiet : Quiet s) (hidle : s.place name = .idle)
    (hnew : ∀ m ∈ (s.client.perform (.emit network name pattern payload)).2.filterMap
      Effect.opened?, m ∉ s.opened) :
    ∃ es, Performs s es (s.client.perform (.emit network name pattern payload)) [name]
      ∧ (Operation.emit network name pattern payload).Turns s es := by
  rcases hacquire : s.client.acquire network.dial with ⟨c, effects, x | n⟩
  · rcases refused_performs network.dial c effects x h hquiet hidle hacquire with
      ⟨es, hperforms, hrefused⟩
    refine ⟨es, ?_, Or.inr hrefused⟩
    simp only [perform, emit, hacquire]
    exact hperforms
  · -- Whether the packet is written or not, the call is over, and it has had no waiter.
    have hover : ∀ (f : Connection → Connection) wrote r,
        c.write network n (.event pattern payload) = (c.update n f, wrote, r) →
        (∀ k, (f k).waiters = k.waiters) → wrote.filterMap Effect.opened? = [] →
        wrote.filterMap Effect.settled? = [] →
        ∃ es, Performs s es (s.client.perform (.emit network name pattern payload)) [name]
          ∧ (Operation.emit network name pattern payload).Turns s es := by
      intro f wrote r hwrite hf hopened hsettled
      have hperform : s.client.perform (.emit network name pattern payload)
          = ((c.update n f).letGo.1, effects ++ wrote ++ (c.update n f).letGo.2
            ++ [.settled ⟨name, r.map fun _ => .null⟩]) := by
        cases r <;> simp only [perform, emit, hacquire, hwrite, tidy] <;> rfl
      rw [hperform] at hnew ⊢
      -- It looks for no mark, so that it writes where it was given the connection.
      rcases alone_of_acquire network.dial c effects h hquiet hidle hacquire fun m hm =>
        hnew m (mem_opened_append _ _ m (mem_opened_append _ _ m (mem_opened_append _ _ m hm)))
        with ⟨es, t, hgiven, hclient, _, hnone, hsettled'⟩
      have hwrites : t.writes name n network (.event pattern payload)
          = { t with client := c.update n f }.leaves name n [r.map fun _ => .null] := by
        cases r <;> simp only [World.writes, hclient, hwrite] <;> rfl
      have hstep := Step.writes t name n network (.event pattern payload)
        (Or.inr ⟨hgiven.place_self, rfl⟩)
      rw [hwrites] at hstep
      have hleads := hgiven.leads_leaves hquiet (c.update n f) _
        (fun other m _ hwaits => waits_update c f m
          (fun k hheld => by rwa [Connection.held, hf]) (hclient ▸ hwaits)) hstep
      have hnodup : (c.update n f).sockets.Nodup := by
        rw [sockets_update, ← hclient]
        exact (inv_of_reaches h hgiven.run.reaches).nodup
      have hperforms := performs_of_leads (effects ++ wrote)
        [.settled ⟨name, r.map fun _ => .null⟩] (c.update n f) [name] h (by
          simp only [List.filterMap_append, hopened, hsettled, hsettled', List.append_nil]
          rw [show [Effect.settled ⟨name, r.map fun _ => .null⟩].filterMap Effect.opened? = []
            from rfl, List.append_nil]
          exact hleads) (update_forget _ hnodup fun hin => hnone (waits_of_update hf hin))
      exact ⟨_, hperforms,
        Or.inl (List.mem_append_left _ (List.mem_append_right _ (List.mem_singleton_self _)))⟩
    rcases c.write_cases n network (.event pattern payload) with
      ⟨x, _, hwrite⟩ | ⟨frame, kind, text, _, _, hwrite⟩ | ⟨frame, _, _, _, hwrite⟩
    · exact hover (fun k => k) _ _ (hwrite.trans (by rw [update_id])) (fun _ => rfl) rfl rfl
    · exact hover _ _ _ hwrite (fun _ => rfl) rfl rfl
    · exact hover _ _ _ hwrite (fun _ => rfl) (opened?_wrote c frame) (settled?_wrote c frame)

/-- Every operation is a row of turns, if the call that it makes has not begun and the socket that
    it opens was not opened. -/
theorem perform_leads (o : Operation) (h : Inv s) (hquiet : Quiet s)
    (hidle : ∀ id, o.name? = some id → s.place id = .idle)
    (hnew : ∀ m ∈ (s.client.perform o).2.filterMap Effect.opened?, m ∉ s.opened) :
    ∃ es, Performs s es (s.client.perform o) o.name?.toList ∧ o.Turns s es := by
  cases o with
  | send network id pattern payload =>
      exact send_performs network id pattern payload h hquiet (hidle id rfl) hnew
  | emit network name pattern payload =>
      exact emit_performs network name pattern payload h hquiet (hidle name rfl) hnew
  | close => exact close_performs h hquiet
  | cancel id => exact cancel_performs id h hquiet
  | receive n octets => exact receive_performs octets h hquiet
  | finish n => exact finish_performs h hquiet

/-- Operations one after another are a row of turns, if no two of them make the same call and no
    socket is opened twice. -/
theorem performAll_leads (os : List Operation) (h : Inv s) (hquiet : Quiet s)
    (hidle : ∀ id ∈ os.filterMap Operation.name?, s.place id = .idle)
    (hnames : (os.filterMap Operation.name?).Nodup)
    (hnew : (s.opened ++ (s.client.performAll os).2.filterMap Effect.opened?).Nodup) :
    ∃ es, Performs s es (s.client.performAll os) (os.filterMap Operation.name?) := by
  induction os generalizing s with
  | nil => exact ⟨[], performs_nothing hquiet []⟩
  | cons o rest ih =>
      have hsplit : (o :: rest).filterMap Operation.name?
          = o.name?.toList ++ rest.filterMap Operation.name? := by
        rw [List.filterMap_cons]
        cases o.name? <;> rfl
      rw [hsplit] at hidle hnames ⊢
      rcases List.nodup_append.mp hnames with ⟨_, hlaterNames, hother⟩
      simp only [performAll, List.filterMap_append, Performs] at hnew ⊢
      rw [← List.append_assoc] at hnew
      have hfirst := (List.nodup_append.mp (List.nodup_append.mp hnew).1).2.2
      have hidleFirst : ∀ id, o.name? = some id → s.place id = .idle := fun id hid =>
        hidle id (List.mem_append_left _ (by rw [hid]; exact List.mem_singleton_self id))
      rcases perform_leads o h hquiet hidleFirst (fun m hm hc => hfirst m hc m hm rfl) with
        ⟨es, ⟨t, hleads, hclient⟩, _⟩
      -- The calls of the operations that follow have not begun yet.
      have hidleLater : ∀ id ∈ rest.filterMap Operation.name?, t.place id = .idle := fun id hid =>
        hleads.idle id (fun hc => hother id hc id hid rfl) (hidle id (List.mem_append_right _ hid))
      rcases ih (inv_of_reaches h hleads.reaches) hleads.quiet hidleLater hlaterNames
        (by rw [hclient, hleads.opened]; exact hnew) with ⟨fs, u, hlater, hclient'⟩
      rw [hclient] at hlater hclient'
      exact ⟨es ++ fs, u, hleads.trans hlater, hclient'⟩

theorem performAll_append (os rest : List Operation) (c : Client) :
    c.performAll (os ++ rest) = (((c.performAll os).1.performAll rest).1,
      (c.performAll os).2 ++ ((c.performAll os).1.performAll rest).2) := by
  induction os generalizing c with
  | nil => rfl
  | cons o os ih => simp only [List.cons_append, performAll, ih, List.append_assoc]

/-- A world in which some operations were done to a new client, one after another: the client is
    what they made of it, and the history is what they did. -/
structure Did (target : Target) (limit : Nat) (os : List Operation) (s : World) : Prop where
  client : s.client = ((new target limit).performAll os).1
  opened : s.opened = ((new target limit).performAll os).2.filterMap Effect.opened?
  results : s.results = ((new target limit).performAll os).2.filterMap Effect.settled?

theorem quiet_start (target : Target) (limit : Nat) : Quiet (.start (new target limit)) :=
  ⟨rfl, rfl, fun _ n hn => absurd hn (Option.some_ne_none n).symm⟩

/-- Operations that are done to a new client are a row of turns. -/
theorem exists_did (target : Target) (limit : Nat) (os : List Operation)
    (hnames : (os.filterMap Operation.name?).Nodup)
    (hsockets : (((new target limit).performAll os).2.filterMap Effect.opened?).Nodup) :
    ∃ s, Reachable target limit s ∧ Quiet s ∧ Did target limit os s
      ∧ ∀ id, id ∉ os.filterMap Operation.name? → s.place id = .idle := by
  rcases performAll_leads os (inv_start target limit) (quiet_start target limit) (fun _ _ => rfl)
    hnames hsockets with ⟨_, s, hs, hclient⟩
  exact ⟨s, hs.reaches, hs.quiet, ⟨hclient, hs.opened, hs.results⟩,
    fun id hid => hs.idle id hid rfl⟩

/-- What is done afterwards leads on from there. -/
theorem Did.append {target : Target} {limit : Nat} {os rest : List Operation} {names : List String}
    (h : Did target limit os s) (hperforms : Performs s es (s.client.performAll rest) names) :
    ∃ t, Run s es t ∧ Did target limit (os ++ rest) t := by
  rcases hperforms with ⟨t, hleads, hclient⟩
  rw [h.client] at hleads hclient
  refine ⟨t, hleads.run, ⟨?_, ?_, ?_⟩⟩
  · rw [performAll_append, hclient]
  · rw [performAll_append, List.filterMap_append, hleads.opened, h.opened]
  · rw [performAll_append, List.filterMap_append, hleads.results, h.results]

section

variable (target : Target) (limit : Nat) (os : List Operation)

/-- Operations that are done to a new client are a row of turns, and so are those that are done to
    it afterwards. -/
theorem performAll_reaches (rest : List Operation)
    (hnames : ((os ++ rest).filterMap Operation.name?).Nodup)
    (hsockets :
      (((new target limit).performAll (os ++ rest)).2.filterMap Effect.opened?).Nodup) :
    ∃ s t, Reachable target limit s ∧ Reaches s t ∧ Did target limit os s
      ∧ Did target limit (os ++ rest) t := by
  rw [List.filterMap_append] at hnames
  rcases List.nodup_append.mp hnames with ⟨hfirst, hlater, hother⟩
  simp only [performAll_append, List.filterMap_append] at hsockets
  rcases exists_did target limit os hfirst (List.nodup_append.mp hsockets).1 with
    ⟨s, hs, hquiet, hdid, hidle⟩
  rcases performAll_leads rest (inv_of_reachable target limit s hs) hquiet
    (fun id hid => hidle id fun hc => hother id hc id hid rfl) hlater
    (by rw [hdid.client, hdid.opened]; exact hsockets) with ⟨_, hperforms⟩
  rcases hdid.append hperforms with ⟨t, hrun, hdid'⟩
  exact ⟨s, t, hs, hrun.reaches, hdid, hdid'⟩

/-- The operation that is done next takes the turns that are its own. -/
theorem perform_turns (o : Operation) (hnames : ((os ++ [o]).filterMap Operation.name?).Nodup)
    (hsockets :
      (((new target limit).performAll (os ++ [o])).2.filterMap Effect.opened?).Nodup) :
    ∃ s es t, Reachable target limit s ∧ Run s es t ∧ o.Turns s es ∧ Did target limit os s
      ∧ Did target limit (os ++ [o]) t := by
  have hsingle : ∀ c : Client, c.performAll [o] = c.perform o := fun c => by
    simp only [performAll, List.append_nil]
  rw [List.filterMap_append] at hnames
  rcases List.nodup_append.mp hnames with ⟨hfirst, _, hother⟩
  simp only [performAll_append, List.filterMap_append, hsingle] at hsockets
  rcases List.nodup_append.mp hsockets with ⟨hopened, _, hfresh⟩
  rcases exists_did target limit os hfirst hopened with ⟨s, hs, hquiet, hdid, hidle⟩
  have hname : ∀ id, o.name? = some id → id ∈ [o].filterMap Operation.name? := fun id hid =>
    List.mem_filterMap.mpr ⟨o, List.mem_singleton_self o, hid⟩
  rcases perform_leads o (inv_of_reachable target limit s hs) hquiet
    (fun id hid => hidle id fun hc => hother id hc id (hname id hid) rfl)
    (fun m hm hc => by
      rw [hdid.client] at hm
      rw [hdid.opened] at hc
      exact hfresh m hc m hm rfl) with ⟨es, hperforms, hturns⟩
  rw [← hsingle] at hperforms
  rcases hdid.append hperforms with ⟨t, hrun, hdid'⟩
  exact ⟨s, es, t, hs, hrun, hturns, hdid, hdid'⟩

end

end Client

end Gateway
