import Gateway.Proofs.Client.Absence
import Gateway.Proofs.Client.Operations

/-!
# A Packet That Is Too Long Harms Nobody

A call whose packet is longer than a frame may be finds out late. By then it was given a connection
that others use, and a request has put its waiter in. Yet the packet is refused before anything of
it is in the buffer, the refusal marks nothing, and the waiter goes with the call.

What this means for the others is said of all runs. Take any run in which the call is made, whatever
the others do before it, in between and after it, and take the turns of the call out: what is left
is a run in which everybody else comes by the same turns to the same results. While the call is
under way the two differ in its waiter, and afterwards in nothing.

The call itself gets to write its packet, and is then told how long it is; or its caller gives up
before; or it looks for the mark and sees it, since somebody else has marked the connection after it
was given to the call.

## Main definitions

* `turns`: The turns of a call, if nobody interrupts it.
* `OnWay`: A call that was given a connection and has not written its packet.
* `Fared`: What has become of such a call.

## Theorems

* `run_turns`: A call that nobody interrupts leaves the client as it was.
* `fared_of_run`: What becomes of a call amid others.
* `send_of_oversized`, `emit_of_oversized`: The operations.
* `oversized_harmless`: A packet that is too long harms nobody.
-/

namespace Gateway

namespace Client

/-- The error of a call whose packet is too long. -/
def oversizedError (c : Client) (p : Request) : CallError :=
  .codec c.target (.tooLarge p.toText.length c.limit)

/-- The turns of a call that is given an open connection, if nobody interrupts it. -/
def turns (id : String) (network : Network) (p : Request) : List Event :=
  if p.isEvent then [.finds id, .writes id network p]
  else [.finds id, .expects id, .looks id, .writes id network p]

variable {s t u : World} {e : Event} {es : List Event} {id : String} {n : Nat} {p : Request}

/-! ## By Itself -/

/-- A call that is given an open connection and cannot write its packet to it. -/
def refuses (s : World) (id : String) (n : Nat) (p : Request) : World :=
  { s.enters id .ended with
    issued := s.issued ++ [(id, n)]
    results := s.results ++ [⟨id, .error (s.client.oversizedError p)⟩] }

/-- A waiter that was put in and is taken away again leaves the connection as it was. -/
theorem update_expect_forget (c : Client) (hnodup : c.sockets.Nodup) (hgone : ¬ c.Waits id n) :
    (c.update n (·.expect id)).update n (·.forget id) = c := by
  rw [update_update]
  refine (congrArg (c.update n) (funext fun k => k.forget_expect id)).trans ?_
  exact update_forget c hnodup hgone

theorem run_nil_iff : Run s [] t ↔ t = s := by
  constructor
  · rintro ⟨⟩
    rfl
  · rintro rfl
    exact .nil t

theorem run_cons_iff : Run s (e :: es) u ↔ ∃ t, Step s e t ∧ Run t es u := by
  constructor
  · rintro ⟨⟩
    next hstep hrun => exact ⟨_, hstep, hrun⟩
  · rintro ⟨t, hstep, hrun⟩
    exact .cons hstep hrun

theorem step_finds_iff (hidle : s.place id = .idle) (hlock : s.lock = none)
    (hready : s.client.ready? = some n) : Step s (.finds id) t ↔ t = s.gives id n := by
  constructor
  · intro hstep
    cases hstep with
    | finds _ m _ _ hready' => rw [Option.some.inj (hready'.symm.trans hready)]
  · rintro rfl
    exact .finds s id n hidle hlock hready

theorem step_expects_iff (hplace : s.place id = .given n) : Step s (.expects id) t
    ↔ t = (s.changes n (·.expect id)).enters id (.entered n) := by
  constructor
  · intro hstep
    cases hstep with
    | expects _ m hplace' => rw [Place.given.inj (hplace'.symm.trans hplace)]
  · rintro rfl
    exact .expects s id n hplace

theorem step_looks_iff (hplace : s.place id = .entered n) (hflag : s.client.flag? n = some true) :
    Step s (.looks id) t ↔ t = s.enters id (.admitted n) := by
  constructor
  · intro hstep
    cases hstep with
    | admits _ m hplace' _ => rw [Place.entered.inj (hplace'.symm.trans hplace)]
    | repels _ m hplace' hflag' =>
        rw [Place.entered.inj (hplace'.symm.trans hplace), hflag] at hflag'
        exact absurd (Option.some.inj hflag').symm Bool.false_ne_true
  · rintro rfl
    exact .admits s id n hplace hflag

theorem step_writes_iff (network : Network)
    (hplace : (s.place id = .admitted n ∧ p.id = some id) ∨ (s.place id = .given n ∧ p.id = none)) :
    Step s (.writes id network p) t ↔ t = s.writes id n network p := by
  constructor
  · intro hstep
    cases hstep with
    | writes _ m _ _ hplace' =>
        rw [Option.some.inj ((socket?_of_writer hplace').symm.trans (socket?_of_writer hplace))]
  · rintro rfl
    exact .writes s id n network p hplace

theorem writes_of_oversized (network : Network) (hlong : s.client.limit < p.toText.length) :
    s.writes id n network p = s.leaves id n [.error (s.client.oversizedError p)] := by
  rw [World.writes, s.client.write_of_oversized n network p hlong]
  rfl

/-- A call leaves nothing but its error behind if its waiter was all that it had put in. -/
theorem writes_eq_refuses (c : Client) (q : Place) (network : Network)
    (hlong : s.client.limit < p.toText.length)
    (ht : t = { s.gives id n with client := c, place := (s.enters id q).place })
    (hclient : c.update n (·.forget id) = s.client) :
    t.writes id n network p = refuses s id n p := by
  have hlimit : (c.update n (·.forget id)).limit = s.client.limit := by rw [hclient]
  have htarget : (c.update n (·.forget id)).target = s.client.target := by rw [hclient]
  change c.limit = _ at hlimit
  change c.target = _ at htarget
  have hplaces := congrArg World.place (enters_enters s id q .ended)
  rw [writes_of_oversized network (by rw [ht]; exact hlimit ▸ hlong), ht]
  simp only [World.leaves, World.changes, World.gives, World.enters, refuses, oversizedError,
    hlimit, htarget, hclient] at hplaces ⊢
  rw [hplaces]
  rfl

/-- If nobody interrupts it, the call ends as it should, and the client is as it was. -/
theorem run_turns (h : Inv s) (hidle : s.place id = .idle) (hready : s.client.ready? = some n)
    (hid : p.id = some id ∨ p.id = none) (hlong : s.client.limit < p.toText.length)
    (network : Network) : Run s (turns id network p) t ↔ t = refuses s id n p := by
  have hlock : s.lock = none := by
    by_contra hc
    exact Option.some_ne_none n (hready.symm.trans (h.vacant hc))
  have hgone := not_waits_of_place h (by rw [hidle]; rfl) n
  have hgiven : (s.gives id n).place id = .given n := enters_self s id (.given n)
  rcases hid with hid | hid
  · -- The waiter is put in, no mark is seen, and the waiter goes with the call.
    have hflag := s.client.flag?_update_of_isOpen n n (·.expect id) fun _ _ => rfl
    rw [((ready?_eq_some_iff _ _).mp hready).2] at hflag
    have hentered := enters_self ((s.gives id n).changes n (·.expect id)) id (.entered n)
    have hadmitted := enters_self
      (((s.gives id n).changes n (·.expect id)).enters id (.entered n)) id (.admitted n)
    rw [turns, if_neg (by rw [Request.isEvent, hid]; exact Bool.false_ne_true), run_cons_iff]
    simp only [step_finds_iff hidle hlock hready, exists_eq_left]
    rw [run_cons_iff]
    simp only [step_expects_iff hgiven, exists_eq_left]
    rw [run_cons_iff]
    simp only [step_looks_iff hentered hflag, exists_eq_left]
    rw [run_cons_iff]
    simp only [step_writes_iff network (Or.inl ⟨hadmitted, hid⟩), exists_eq_left, run_nil_iff]
    rw [writes_eq_refuses _ (.admitted n) network hlong ?_
      (update_expect_forget s.client h.nodup hgone)]
    rw [enters_enters]
    have hplaces := congrArg World.place (enters_enters s id (.given n) (.admitted n))
    simp only [World.changes, World.gives, World.enters] at hplaces ⊢
    rw [hplaces]
  · rw [turns, if_pos (by rw [Request.isEvent, hid]; rfl), run_cons_iff]
    simp only [step_finds_iff hidle hlock hready, exists_eq_left]
    rw [run_cons_iff]
    simp only [step_writes_iff network (Or.inr ⟨hgiven, hid⟩), exists_eq_left, run_nil_iff]
    rw [writes_eq_refuses (t := s.gives id n) s.client (.given n) network hlong rfl
      (update_forget s.client h.nodup hgone)]

/-! ## Amid Others -/

/-- A call that was given a connection and has not written its packet. -/
def OnWay (s : World) (id : String) (n : Nat) : Prop :=
  s.place id = .given n ∨ s.place id = .entered n ∨ s.place id = .admitted n

/-- What has become of a call in a run, if its packet is too long. -/
inductive Fared (id : String) (n : Nat) (p : Request) (s t : World) (es : List Event) : Prop
  /-- It came to write its packet, and was told how long that is. -/
  | refused (hplace : t.place id = .ended)
      (htold : told id t.results = told id s.results ++ [.error (s.client.oversizedError p)])
  /-- It has not come to write, and was told nothing: it is on its way, or was given up. -/
  | silent (hwrites : ∀ e ∈ es, e.packet? id = none)
      (hplace : OnWay t id n ∨ .cancels id ∈ es)
      (htold : told id t.results = told id s.results)
  /-- It did not come to write, for its connection was marked before it looked. -/
  | late (hwrites : ∀ e ∈ es, e.packet? id = none) (hplace : t.place id = .ended)
      (u : World) (hbefore : Reaches s u) (hafter : Reaches u t)
      (hmarked : u.client.flag? n = some false)
      (htold : told id t.results
        = told id s.results ++ [.error (.connectionClosed s.client.target)])

/-- A turn of a call on its way: it writes a packet, or begins to; it goes on; or it is over without
    having written. -/
theorem turn_of_onWay (hway : OnWay s id n) (hstep : Step s e t) (hcaller : e.caller? = some id) :
    (∃ network q, e = .writes id network q ∧ t = s.writes id n network q)
      ∨ (∃ q frame, e = .interrupts id q
        ∧ Frame.encode s.client.limit q.toText [] = .ok frame)
      ∨ e.packet? id = none
        ∧ (OnWay t id n ∧ told id t.results = told id s.results
          ∨ e = .cancels id ∧ t = s.leaves id n []
          ∨ s.client.flag? n = some false
            ∧ t = s.leaves id n [.error (.connectionClosed s.client.target)]) := by
  have hsocket : (s.place id).socket? = some n := by
    rcases hway with h | h | h <;> rw [h] <;> rfl
  have hnot : ∀ p : Place, p.socket? = none → s.place id ≠ p := by
    rintro p hp hc
    rw [hc, hp] at hsocket
    exact Option.some_ne_none n hsocket.symm
  cases hstep with
  | finds other m hidle => rcases hcaller; exact absurd hidle (hnot _ rfl)
  | dials other hidle => rcases hcaller; exact absurd hidle (hnot _ rfl)
  | connects other m hconnecting => rcases hcaller; exact absurd hconnecting (hnot _ rfl)
  | refused other kind text hconnecting => rcases hcaller; exact absurd hconnecting (hnot _ rfl)
  | abandons other hconnecting => rcases hcaller; exact absurd hconnecting (hnot _ rfl)
  | takes other m l r hwaiting =>
      rcases hcaller
      rcases hway with h | h | h <;> exact absurd (h.symm.trans hwaiting) Place.noConfusion
  | expects other m hgiven =>
      rcases hcaller
      have hm : m = n := Option.some.inj (by rw [← hsocket, hgiven]; rfl)
      subst hm
      exact Or.inr (Or.inr ⟨rfl, Or.inl ⟨Or.inr (Or.inl (enters_self _ id _)), rfl⟩⟩)
  | admits other m hentered hflag =>
      rcases hcaller
      have hm : m = n := Option.some.inj (by rw [← hsocket, hentered]; rfl)
      subst hm
      exact Or.inr (Or.inr ⟨rfl, Or.inl ⟨Or.inr (Or.inr (enters_self _ id _)), rfl⟩⟩)
  | repels other m hentered hflag =>
      rcases hcaller
      have hm : m = n := Option.some.inj (by rw [← hsocket, hentered]; rfl)
      subst hm
      exact Or.inr (Or.inr ⟨rfl, Or.inr (Or.inr ⟨hflag, rfl⟩)⟩)
  | writes other m network q hwriter =>
      rcases hcaller
      have hm : m = n := Option.some.inj ((socket?_of_writer hwriter).symm.trans hsocket)
      subst hm
      exact Or.inl ⟨network, q, rfl, rfl⟩
  | interrupts other m q frame hwriter hframe =>
      rcases hcaller
      exact Or.inr (Or.inl ⟨q, frame, rfl, hframe⟩)
  | cancels other m hplaced =>
      rcases hcaller
      have hm : m = n := Option.some.inj (hplaced.symm.trans hsocket)
      subst hm
      exact Or.inr (Or.inr ⟨rfl, Or.inr (Or.inl ⟨rfl, rfl⟩)⟩)
  | flushes | arrives | frame | breaks | rejects | ends | closesNone | closes | marks | fails
  | drops => exact absurd hcaller (Option.some_ne_none id).symm

/-- What becomes of a call after a turn in which nothing does has become of it all the same. -/
theorem Fared.cons (h : Fared id n p t u es) (hstep : Step s e t)
    (htold : told id t.results = told id s.results) (hnot : e.packet? id = none) :
    Fared id n p s u (e :: es) := by
  rcases limit_of_step hstep with ⟨hlimit, htarget⟩
  have herror : t.client.oversizedError p = s.client.oversizedError p := by
    rw [oversizedError, hlimit, htarget]
    rfl
  cases h with
  | refused hplace htold' => exact .refused hplace (by rw [htold', htold, herror])
  | silent hwrites hplace htold' =>
      exact .silent (List.forall_mem_cons.mpr ⟨hnot, hwrites⟩)
        (hplace.imp_right (List.mem_cons_of_mem e)) (htold'.trans htold)
  | late hwrites hplace v hbefore hafter hmarked htold' =>
      exact .late (List.forall_mem_cons.mpr ⟨hnot, hwrites⟩) hplace v
        ((reaches_single hstep).trans hbefore) hafter hmarked (by rw [htold', htold, htarget])

theorem packet?_of_caller_ne (hcaller : e.caller? ≠ some id) : e.packet? id = none := by
  cases e with
  | writes other network q => exact if_neg fun hc => hcaller (congrArg some hc)
  | interrupts other q => exact if_neg fun hc => hcaller (congrArg some hc)
  | _ => rfl

theorem fared_of_run (hway : OnWay s id n) (hlong : s.client.limit < p.toText.length)
    (hrun : Run s es t) (hpacket : ∀ e ∈ es, ∀ q, e.packet? id = some q → q = p) :
    Fared id n p s t es := by
  induction hrun with
  | nil s => exact .silent (fun _ he => absurd he List.not_mem_nil) (Or.inl hway) rfl
  | @cons s t u e es hstep hrun ih =>
      rcases List.forall_mem_cons.mp hpacket with ⟨hpacket, hlater⟩
      have hgoes : OnWay t id n → told id t.results = told id s.results → e.packet? id = none →
          Fared id n p s u (e :: es) := fun hway' =>
        (ih hway' ((limit_of_step hstep).1 ▸ hlong) hlater).cons hstep
      -- Once the call is over, it comes to write no more.
      have hover : t.place id = .ended → u.place id = .ended
          ∧ told id u.results = told id t.results ∧ ∀ e ∈ es, e.packet? id = none := by
        intro hplace
        rcases ended_of_run hrun hplace with ⟨hended, htold, hcallers⟩
        exact ⟨hended, htold, fun e he => packet?_of_caller_ne (hcallers e he)⟩
      by_cases hcaller : e.caller? = some id
      · rcases turn_of_onWay hway hstep hcaller with ⟨network, q, rfl, ht⟩ |
          ⟨q, frame, rfl, hframe⟩ | ⟨hnot, ⟨hway', htold⟩ | ⟨rfl, ht⟩ | ⟨hmarked, ht⟩⟩
        · rw [hpacket q (packet?_writes network q), writes_of_oversized network hlong] at ht
          rcases hover (by rw [ht]; exact leaves_self s id n _) with ⟨hended, htold, _⟩
          refine .refused hended (htold.trans ?_)
          rw [ht]
          exact told_append_map_self s.results _
        · -- What is too long is refused before it could be interrupted.
          rw [hpacket q (packet?_interrupts q), Frame.encode_of_lt _ _ _ hlong] at hframe
          cases hframe
        · exact hgoes hway' htold hnot
        · rcases hover (by rw [ht]; exact leaves_self s id n _) with ⟨_, htold, hwrites⟩
          refine .silent (List.forall_mem_cons.mpr ⟨hnot, hwrites⟩) (Or.inr List.mem_cons_self)
            (htold.trans ?_)
          rw [ht]
          exact (told_append_map_self s.results []).trans (List.append_nil _)
        · rcases hover (by rw [ht]; exact leaves_self s id n _) with ⟨hended, htold, hwrites⟩
          refine .late (List.forall_mem_cons.mpr ⟨hnot, hwrites⟩) hended s .refl
            ((reaches_single hstep).trans hrun.reaches) hmarked (htold.trans ?_)
          rw [ht]
          exact told_append_map_self s.results _
      · rcases step_of_caller_ne hstep hcaller with ⟨hplace, htold⟩
        refine hgoes ?_ htold (packet?_of_caller_ne hcaller)
        rw [OnWay, hplace]
        exact hway

/-- What becomes of a call amid others, and what the others come to without it. -/
theorem amid_of_run (h : Inv s) (hidle : s.place id = .idle) (hready : s.client.ready? = some n)
    (hlong : s.client.limit < p.toText.length) (hrun : Run s (.finds id :: es) t)
    (hpacket : ∀ e ∈ es, ∀ q, e.packet? id = some q → q = p) :
    Fared id n p s t (.finds id :: es)
      ∧ ∃ t', Run s (es.filter fun e => !e.concerns id) t' ∧ Omits id t t'
        ∧ ((t.place id).socket? = none → t'.client = t.client) := by
  rcases run_cons_iff.mp hrun with ⟨u, hstep, hrun'⟩
  cases hstep with
  | finds _ m _ hlock hready' =>
      have hm : m = n := Option.some.inj (hready'.symm.trans hready)
      subst hm
      have hgiven : (s.gives id m).place id = .given m := enters_self s id (.given m)
      have hstep := Step.finds s id m hidle hlock hready
      have hfared := fared_of_run (Or.inl hgiven) hlong hrun' hpacket
      have hinv := inv_step s _ _ h hstep
      rcases (omits_gives h hidle).run hinv hrun' (by rw [hgiven]; rfl)
        (fun e he q hq => by rw [hpacket e he q hq]; exact hlong) with ⟨t', hrest, homits⟩
      exact ⟨hfared.cons hstep rfl rfl, t', hrest, homits,
        homits.client_of_place (inv_of_reaches h hrun.reaches)⟩

/-! ## The Operations -/

/-- A request that finds a connection, and whose packet is too long, leaves the client as it was.
    As after every call, what nobody waits on is let go. -/
theorem send_of_oversized (c : Client) (network : Network) (id pattern : String) (payload : Json)
    (hready : c.ready? = some n) (hnodup : c.sockets.Nodup) (hgone : ¬ c.Waits id n)
    (hlong : c.limit < (Request.call id pattern payload).toText.length) :
    c.send network id pattern payload
      = c.tidy [] (some (.error (c.oversizedError (.call id pattern payload)))) := by
  have hwrite := (c.update n (·.expect id)).write_of_oversized n network
    (.call id pattern payload) hlong
  simp only [send, c.acquire_of_ready n network.dial hready, hwrite,
    update_expect_forget c hnodup hgone, List.append_nil]
  rfl

theorem emit_of_oversized (c : Client) (network : Network) (pattern : String) (payload : Json)
    (hready : c.ready? = some n)
    (hlong : c.limit < (Request.event pattern payload).toText.length) :
    c.emit network pattern payload
      = c.tidy [] (.error (c.oversizedError (.event pattern payload))) := by
  simp only [emit, c.acquire_of_ready n network.dial hready,
    c.write_of_oversized n network _ hlong, List.append_nil]
  rfl

theorem limit_of_reaches (hreaches : Reaches s t) :
    t.client.limit = s.client.limit ∧ t.client.target = s.client.target := by
  induction hreaches with
  | refl => exact ⟨rfl, rfl⟩
  | tail _ hstep ih =>
      rcases hstep with ⟨e, hstep⟩
      rcases limit_of_step hstep with ⟨hlimit, htarget⟩
      exact ⟨hlimit.trans ih.1, htarget.trans ih.2⟩

/-- A call that finds an open connection, and whose packet is too long for it, harms nobody. This is
    so in every world that a client comes to, whoever else waits on the connection.

    * Nothing of the packet gets into the buffer, whatever is in there, and nothing is written.
    * If nobody interrupts the call it returns with its error, and the client is the same after it
      as before: the connection is open, the same calls wait on it, and the same octets are still
      to go out over it.
    * If others interrupt it, it still returns with that error when it comes to write its packet.
      And whatever they do, they could have done it without the call, to the same end. Once the call
      is over, the client is the one that they would have come to without it.
    * The operations do just this. -/
theorem oversized_harmless (target : Target) (limit : Nat) (s : World)
    (h : Reachable target limit s) (id : String) (n : Nat) (hidle : s.place id = .idle)
    (hready : s.client.ready? = some n) (p : Request) (hid : p.id = some id ∨ p.id = none)
    (hlong : limit < p.toText.length) :
    s.client.oversizedError p = .codec target (.tooLarge p.toText.length limit)
      ∧ (∀ buffer, Frame.put limit p.toText buffer
        = (buffer, .error (.tooLarge p.toText.length limit)))
      ∧ (∀ u network m, Reaches s u →
        u.client.write network m p = (u.client, [], .error (s.client.oversizedError p)))
      ∧ (∀ network t, Run s (turns id network p) t ↔ t = refuses s id n p)
      ∧ (∀ es t, Run s (.finds id :: es) t → (∀ e ∈ es, ∀ q, e.packet? id = some q → q = p) →
        Fared id n p s t (.finds id :: es)
          ∧ ∃ t', Run s (es.filter fun e => !e.concerns id) t' ∧ Omits id t t'
            ∧ ((t.place id).socket? = none → t'.client = t.client))
      ∧ (∀ network pattern payload, p = .call id pattern payload →
        s.client.send network id pattern payload
          = s.client.tidy [] (some (.error (s.client.oversizedError p))))
      ∧ ∀ network pattern payload, p = .event pattern payload →
        s.client.emit network pattern payload
          = s.client.tidy [] (.error (s.client.oversizedError p)) := by
  have hinv := inv_of_reachable target limit s h
  rcases limit_of_reaches h with ⟨hlimit, htarget⟩
  change s.client.limit = limit at hlimit
  change s.client.target = target at htarget
  have hlong' : s.client.limit < p.toText.length := hlimit ▸ hlong
  refine ⟨by rw [oversizedError, hlimit, htarget],
    fun buffer => Frame.put_of_lt limit _ buffer hlong,
    fun u network m hreaches => ?_, fun network t => run_turns hinv hidle hready hid hlong' network,
    fun es t hrun hpacket => ?_, fun network pattern payload hp => ?_,
    fun network pattern payload hp => ?_⟩
  · rcases limit_of_reaches hreaches with ⟨hlimit', htarget'⟩
    rw [write_of_oversized _ m network p (hlimit' ▸ hlong'), hlimit', htarget']
    rfl
  · exact amid_of_run hinv hidle hready hlong' hrun hpacket
  · subst hp
    exact send_of_oversized s.client network id pattern payload hready hinv.nodup
      (not_waits_of_place hinv (by rw [hidle]; rfl) n) hlong'
  · subst hp
    exact emit_of_oversized s.client network pattern payload hready hlong'

/-- A request with a payload of seventy characters. -/
def lengthy : Request :=
  .call "a" "p" (.string ("".pushn 'x' 70))

/-- One call waits on a connection, what another was given up over is still to go out over it, and a
    third one has a packet that is too long. -/
theorem oversized_harmless_two : lengthy.id = some "a" ∧ 64 < lengthy.toText.length
    ∧ ∃ s t, Reachable .notification 64 s ∧ s.place "a" = .idle ∧ s.client.ready? = some 0
      ∧ (s.client.connection? 0).map Connection.ids = some ["b"]
      ∧ s.client.outbox 0 = Frame.frame (Request.event "p" .null).toText
      ∧ Run s (turns "a" ⟨.connected 1, none⟩ lengthy) t ∧ t.client = s.client
      ∧ told "a" t.results = [.error (.codec .notification (.tooLarge 104 64))] := by
  rcases performAll_leads [.send ⟨.connected 0, none⟩ "b" "p" .null] (inv_start .notification 64)
    (quiet_start .notification 64) (fun _ _ => rfl) (by decide) (by decide +kernel) with
    ⟨_, r, hleads, hclient⟩
  have hidle : r.place "a" = .idle := hleads.idle "a" (by decide) rfl
  have hready : r.client.ready? = some 0 := by
    rw [hclient]
    decide +kernel
  -- The caller of an event gives up while its packet is to go out.
  have hfinds := Step.finds r "c" 0 (hleads.idle "c" (by decide) rfl) hleads.quiet.unlocked hready
  have hframe : Frame.encode (r.gives "c" 0).client.limit (Request.event "p" .null).toText []
      = .ok (Frame.frame (Request.event "p" .null).toText) := by
    change Frame.encode r.client.limit _ [] = _
    rw [hclient]
    decide +kernel
  have hinterrupts := Step.interrupts (r.gives "c" 0) "c" 0 (.event "p" .null) _
    (Or.inr ⟨enters_self r "c" _, rfl⟩) hframe
  rw [interrupts_eq _ "c" 0 _ hframe] at hinterrupts
  generalize hs : ((r.gives "c" 0).changes 0 (·.fill _)).leaves "c" 0 [] = s at hinterrupts
  have hreachable : Reachable .notification 64 s :=
    (hleads.reaches.trans (reaches_single hfinds)).trans (reaches_single hinterrupts)
  have hplace : s.place "a" = .idle := by
    rw [← hs]
    exact hidle
  have hclient' : s.client = (r.client.update 0 (·.fill
      (Frame.frame (Request.event "p" .null).toText))).update 0 (·.forget "c") := by
    rw [← hs]
    rfl
  rw [hclient] at hclient'
  have hready' : s.client.ready? = some 0 := by
    rw [hclient']
    decide +kernel
  have hlong : 64 < lengthy.toText.length := by decide +kernel
  rcases oversized_harmless .notification 64 s hreachable "a" 0 hplace hready' lengthy
    (Or.inl rfl) hlong with ⟨herror, _, _, hturns, _⟩
  refine ⟨rfl, hlong, s, refuses s "a" 0 lengthy, hreachable, hplace, hready', ?_, ?_,
    (hturns ⟨.connected 1, none⟩ _).mpr rfl, rfl, ?_⟩
  · rw [hclient']
    decide +kernel
  · rw [hclient']
    decide +kernel
  · have hresults : told "a" s.results = [] := by
      have hnone : told "a" r.results = [] := by
        rw [hleads.results]
        decide +kernel
      rw [← hs]
      exact (told_append_map_ne _ [] (by decide)).trans hnone
    have hlength : lengthy.toText.length = 104 := by decide +kernel
    rw [hlength] at herror
    rw [refuses, herror, told_append, hresults, told_singleton_self]
    rfl

end Client

end Gateway
