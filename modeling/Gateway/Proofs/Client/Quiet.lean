import Gateway.Proofs.Client.Turns
import Gateway.Proofs.Frame.Decoding

/-!
# Quiet Worlds

The operations of a client are each done in one go, while `Step` cuts them into turns that others
may interrupt. What holds in every reachable world is said of the operations too if each of them is
a row of turns. That is not so in every world: in the middle of a call there are places that no
operation leaves a call at, or a connection that is about to be marked.

In a quiet world there is nothing of that kind. Nobody holds the lock, nothing is about to be
marked, and every call that was given a connection has its waiter in. What an operation is made of
leads from a quiet world to a quiet world, and is put together here: what settles a call, after
which the call takes its result at once, failing calls one after another, decoding an inbox, and
letting connections go that nobody waits on.

## Main definitions

* `Quiet`: A world that is between operations.
* `Leads`: A row of turns from one quiet world to another, and what is seen of it.
* `Connection.digest`: What decoding found is taken.
* `Sweeps`, `Takes`: The turns of failing everybody, and of taking what decoding found.
* `idleSockets`: The sockets of the connections that are let go.

## Theorems

* `settles_leads`: Settling a call, with the call taking its result.
* `failAll_leads`, `shuts_leads`, `stop_leads`, `drain_leads`: What is made of it.
* `letGo_eq`, `letGo_leads`: Letting go what nobody waits on.
-/

namespace Gateway

namespace Connection

/-- The frames that decoding found are taken, in their order. -/
def takeFrames (target : Target) (k : Connection) (found : Frame.Drained) :
    Connection × List Settled :=
  { k with inbox := found.rest }.acceptAll target found.frames

/-- What decoding found is taken: the frames, and then the end if something was refused. -/
def digest (target : Target) (k : Connection) (found : Frame.Drained) :
    Connection × List Settled :=
  let (k, now) := k.takeFrames target found
  match found.error with
  | none => (k, now)
  | some e =>
    let (k, later) := k.stop target e
    (k, now ++ later)

theorem receive_of_isRead (target : Target) (limit : Nat) (k : Connection) (octets : Bytes)
    (hread : k.isRead = true) :
    k.receive target limit octets = k.digest target (Frame.feed limit k.inbox octets) := by
  have hguard : (!k.isRead) = false := by
    rw [hread]
    rfl
  rcases hfound : Frame.feed limit k.inbox octets with ⟨frames, _ | e, rest⟩ <;>
    simp only [receive, hguard, Bool.false_eq_true, if_false, digest, takeFrames, hfound]

theorem acceptValue_inbox (target : Target) (k : Connection) (v : Json) (inbox : Bytes) :
    { k with inbox := inbox }.acceptValue target v
      = ({ (k.acceptValue target v).1 with inbox := inbox }, (k.acceptValue target v).2) := by
  rw [acceptValue, acceptValue]
  cases Reply.ofValue? v with
  | none => rfl
  | some reply =>
      simp only [accept]
      cases reply.id with
      | none => rfl
      | some id =>
          cases reply.isFinal with
          | false => rfl
          | true =>
              simp only [Bool.not_true, Bool.false_eq_true, if_false]
              cases k.waiters.find? fun w => w.id == id <;> rfl

/-- A value is dropped, is remembered for a call, or settles one. -/
theorem acceptValue_cases (target : Target) (k : Connection) (v : Json) :
    k.acceptValue target v = (k, [])
      ∨ (∃ id response, k.acceptValue target v = (k.remember id response, []))
      ∨ ∃ id result, k.acceptValue target v = (k.forget id, [⟨id, result⟩]) := by
  rw [acceptValue]
  cases Reply.ofValue? v with
  | none => exact Or.inl rfl
  | some reply =>
      simp only [accept]
      cases reply.id with
      | none => exact Or.inl rfl
      | some id =>
          cases reply.isFinal with
          | false => exact Or.inr (Or.inl ⟨id, reply.response, rfl⟩)
          | true =>
              simp only [Bool.not_true, Bool.false_eq_true, if_false]
              cases k.waiters.find? fun w => w.id == id with
              | none => exact Or.inl rfl
              | some w => exact Or.inr (Or.inr ⟨id, conclude target reply w.last, rfl⟩)

theorem isRead_acceptValue (target : Target) (k : Connection) (v : Json) :
    (k.acceptValue target v).1.isRead = k.isRead := by
  rcases acceptValue_cases target k v with h | ⟨_, _, h⟩ | ⟨_, _, h⟩ <;> rw [h] <;> rfl

theorem length_acceptValue (target : Target) (k : Connection) (v : Json) :
    (k.acceptValue target v).2.length ≤ 1 := by
  rcases acceptValue_cases target k v with h | ⟨_, _, h⟩ | ⟨_, _, h⟩ <;> rw [h]
  · exact Nat.zero_le 1
  · exact Nat.zero_le 1
  · exact Nat.le_refl 1

theorem length_fail (target : Target) (k : Connection) (id : String) :
    (k.fail target id).2.length ≤ 1 := by
  rw [fail]
  split
  · exact Nat.le_refl 1
  · exact Nat.zero_le 1

/-- The first frame is taken before the others, and before the rest is put into the inbox. -/
theorem takeFrames_cons (target : Target) (k : Connection) (v : Json) (inbox : Bytes)
    (found : Frame.Drained) :
    k.takeFrames target { found with frames := v :: found.frames }
      = (((({ k with inbox := inbox } : Connection).acceptValue target v).1.takeFrames target
          found).1,
        (k.acceptValue target v).2
          ++ ((({ k with inbox := inbox } : Connection).acceptValue target v).1.takeFrames target
            found).2) := by
  simp only [takeFrames, acceptAll, acceptValue_inbox]

theorem digest_cons (target : Target) (k : Connection) (v : Json) (inbox : Bytes)
    (found : Frame.Drained) :
    k.digest target { found with frames := v :: found.frames }
      = (((({ k with inbox := inbox } : Connection).acceptValue target v).1.digest target found).1,
        (k.acceptValue target v).2
          ++ ((({ k with inbox := inbox } : Connection).acceptValue target v).1.digest target
            found).2) := by
  simp only [digest, k.takeFrames_cons target v inbox found, acceptValue_inbox]
  cases found.error with
  | none => rfl
  | some e => simp only [List.append_assoc]

end Connection

namespace Client

/-- A world between operations. -/
structure Quiet (s : World) : Prop where
  unlocked : s.lock = none
  left : s.leaving = []
  -- Every call that uses a connection has written its packet and has its waiter in.
  settled : ∀ id n, (s.place id).socket? = some n → s.place id = .waiting n ∧ s.client.Waits id n

/-- A row of turns that leads to a quiet world, with what was opened, what calls returned with and
    which calls may have begun. -/
structure Leads (s : World) (es : List Event) (t : World) (opened : List Nat)
    (results : List Settled) (names : List String) : Prop where
  run : Run s es t
  quiet : Quiet t
  opened : t.opened = s.opened ++ opened
  results : t.results = s.results ++ results
  idle : ∀ id, id ∉ names → s.place id = .idle → t.place id = .idle
  -- A connection whose waiters are being failed stays one, so that failing can go on.
  swept : ∀ n ∈ s.swept, n ∈ t.swept

variable {s t u : World} {e : Event} {es fs : List Event} {id : String} {n : Nat}

theorem leads_refl (h : Quiet s) (names : List String) : Leads s [] s [] [] names :=
  ⟨.nil s, h, (List.append_nil _).symm, (List.append_nil _).symm, fun _ _ hidle => hidle,
    fun _ hn => hn⟩

theorem Leads.reaches {opened : List Nat} {results : List Settled} {names : List String}
    (h : Leads s es t opened results names) : Reaches s t :=
  h.run.reaches

theorem Leads.trans {opened opened' : List Nat} {results results' : List Settled}
    {names names' : List String} (hst : Leads s es t opened results names)
    (htu : Leads t fs u opened' results' names') :
    Leads s (es ++ fs) u (opened ++ opened') (results ++ results') (names ++ names') where
  run := hst.run.append htu.run
  quiet := htu.quiet
  opened := by rw [htu.opened, hst.opened, List.append_assoc]
  results := by rw [htu.results, hst.results, List.append_assoc]
  idle := fun id hid hidle =>
    htu.idle id (fun hc => hid (List.mem_append_right _ hc))
      (hst.idle id (fun hc => hid (List.mem_append_left _ hc)) hidle)
  swept := fun n hn => htu.swept n (hst.swept n hn)

theorem waits_update (c : Client) (f : Connection → Connection) (m : Nat)
    (hf : ∀ k, (k.held id).isSome = true → ((f k).held id).isSome = true) (h : c.Waits id m) :
    (c.update n f).Waits id m := by
  rcases h with ⟨k, hk, hheld⟩
  by_cases hm : m = n
  · rw [hm] at hk ⊢
    exact ⟨f k, c.connection?_update_self n f k hk, hf k hheld⟩
  · exact ⟨k, (c.connection?_update_ne n m f hm).trans hk, hheld⟩

theorem waits_of_update {c : Client} {f : Connection → Connection} {m : Nat}
    (hf : ∀ k, (f k).waiters = k.waiters) (h : (c.update n f).Waits id m) : c.Waits id m := by
  rcases h with ⟨k, hk, hheld⟩
  by_cases hm : m = n
  · rw [hm, connection?_update, if_pos rfl] at hk
    rcases Option.map_eq_some_iff.mp hk with ⟨k', hk', rfl⟩
    rw [Connection.held, hf] at hheld
    exact ⟨k', hm ▸ hk', hheld⟩
  · exact ⟨k, (c.connection?_update_ne n m f hm).symm.trans hk, hheld⟩

theorem waits_forget (c : Client) (other : String) (m : Nat) (hne : other ≠ id)
    (h : c.Waits id m) : (c.update n (·.forget other)).Waits id m :=
  waits_update c _ m (fun k hheld => by rwa [Connection.held_forget_ne k other id hne]) h

/-- The calls that use a connection after one is over are the others that did before. -/
theorem socket?_leaves (results : List CallResult) (other : String) (m : Nat)
    (h : ((s.leaves id n results).place other).socket? = some m) :
    other ≠ id ∧ (s.place other).socket? = some m := by
  by_cases hother : other = id
  · rw [hother, leaves_self] at h
    exact absurd h (Option.some_ne_none m).symm
  · rw [leaves_ne s id other n results hother] at h
    exact ⟨hother, h⟩

theorem update_forget (c : Client) (hnodup : c.sockets.Nodup) (hgone : ¬ c.Waits id n) :
    c.update n (·.forget id) = c :=
  c.update_self n _ (fun k hk => Connection.forget_of_unheld k id
    (Option.not_isSome_iff_eq_none.mp fun hheld => hgone ⟨k, hk, hheld⟩)) hnodup

theorem leads_unchanged (k : Connection) (h : Inv s) (hquiet : Quiet s)
    (hk : s.client.connection? n = some k) :
    ∃ t, Leads s [] t [] [] [] ∧ t.client = s.client.update n fun _ => k :=
  ⟨s, leads_refl hquiet [], (s.client.update_self n _
    (fun _ hk' => Option.some.inj (hk.symm.trans hk')) h.nodup).symm⟩

/-- Turns that are no call's keep a world quiet if they take nobody's waiter away. -/
theorem leads_of_waits (hquiet : Quiet s) (hrun : Run s es t)
    (hwaits : ∀ id m, s.client.Waits id m → t.client.Waits id m) (hplace : t.place = s.place)
    (hlock : t.lock = s.lock) (hleft : t.leaving = []) (hopened : t.opened = s.opened)
    (hresults : t.results = s.results) (hswept : ∀ m ∈ s.swept, m ∈ t.swept) :
    Leads s es t [] [] [] where
  run := hrun
  quiet := by
    refine ⟨hlock.trans hquiet.unlocked, hleft, fun id m hm => ?_⟩
    rw [hplace] at hm ⊢
    exact (hquiet.settled id m hm).imp_right (hwaits id m)
  opened := hopened.trans (List.append_nil _).symm
  results := hresults.trans (List.append_nil _).symm
  idle := fun id _ hidle => hplace ▸ hidle
  swept := hswept

/-- What is done to a connection takes nobody's waiter away if it leaves its waiters alone. -/
theorem waits_const (k k' : Connection) (hk : s.client.connection? n = some k)
    (hwaiters : k'.waiters = k.waiters) (m : Nat) (h : s.client.Waits id m) :
    (s.client.update n fun _ => k').Waits id m := by
  rcases h with ⟨l, hl, hheld⟩
  by_cases hm : m = n
  · rw [hm] at hl ⊢
    refine ⟨k', s.client.connection?_update_self n _ k hk, ?_⟩
    rw [← Option.some.inj (hk.symm.trans hl)] at hheld
    rw [Connection.held, hwaiters]
    exact hheld
  · exact ⟨l, (s.client.connection?_update_ne n m _ hm).trans hl, hheld⟩

/-! ## Settling -/

/-- The turns of the reader of a connection. -/
def Event.reads (n : Nat) : Event → Bool
  | .arrives m _ | .frame m _ | .breaks m _ | .rejects m _ | .ends m => m == n
  | _ => false

/-- What settles one call at most, with that call taking its result at once. -/
theorem settles_leads (k : Connection) (did : Connection × List Settled) (h : Inv s)
    (hquiet : Quiet s) (hk : s.client.connection? n = some k)
    (hstep : Step s e (s.settles n did))
    (hsettles : ∀ id, Connection.Settles (k.held id) (did.1.held id) (told id did.2))
    (hone : did.2.length ≤ 1) :
    ∃ t, Leads s (e :: did.2.map fun call => .takes call.id) t [] did.2 []
      ∧ t.client = s.client.update n fun _ => did.1 := by
  rcases did with ⟨k', sent⟩
  -- Who is told nothing waits on.
  have hwaits : ∀ other m, told other sent = [] → s.client.Waits other m →
      (s.settles n (k', sent)).client.Waits other m := by
    rintro other m htold ⟨l, hl, hheld⟩
    by_cases hm : m = n
    · rw [hm] at hl ⊢
      refine ⟨k', s.client.connection?_update_self n _ k hk, ?_⟩
      rw [← Option.some.inj (hk.symm.trans hl)] at hheld
      rcases hsettles other with ⟨hsame, _⟩ | ⟨_, _, hsent⟩
      · exact hsame.trans hheld
      · rw [htold] at hsent
        exact absurd hsent Nat.zero_ne_one
    · exact ⟨l, (s.client.connection?_update_ne n m _ hm).trans hl, hheld⟩
  cases sent with
  | nil =>
      exact ⟨s.settles n (k', []), leads_of_waits hquiet (.single hstep)
        (fun id m => hwaits id m rfl) rfl rfl hquiet.left rfl rfl fun _ hm => hm, rfl⟩
  | cons call rest =>
      have hrest : rest = [] := List.eq_nil_of_length_eq_zero (by
        rw [List.length_cons] at hone
        omega)
      subst hrest
      -- The call waited, and it does so no more.
      have hcall : (k.held call.id).isSome = true ∧ k'.held call.id = none := by
        rcases hsettles call.id with ⟨_, hnone⟩ | ⟨hbefore, hafter, _⟩
        · have htold := mem_told_of_mem call [call] (List.mem_singleton_self call)
          rw [hnone] at htold
          exact absurd htold List.not_mem_nil
        · exact ⟨hbefore, hafter⟩
      have hplace := (hquiet.settled call.id n (h.waiting n k call.id hk hcall.1)).1
      have htaken := Step.takes (s.settles n (k', [call])) call.id n n call.result hplace
        (List.mem_append_right _ (List.mem_singleton_self _))
      refine ⟨_, ⟨.cons hstep (.single htaken), ⟨hquiet.unlocked, hquiet.left, ?_⟩,
        (List.append_nil _).symm, rfl, ?_, fun _ hn => hn⟩, ?_⟩
      · intro other m hm
        rcases socket?_leaves _ other m hm with ⟨hother, hm⟩
        rcases hquiet.settled other m hm with ⟨hwaiting, hin⟩
        refine ⟨(leaves_ne _ call.id other n _ hother).trans hwaiting, ?_⟩
        refine waits_forget _ call.id m (fun hc => hother hc.symm) (hwaits other m ?_ hin)
        exact told_singleton_ne other call.id call.result fun hc => hother hc.symm
      · intro other _ hidle
        refine (leaves_ne _ call.id other n _ ?_).trans hidle
        rintro rfl
        rw [hplace] at hidle
        exact Place.noConfusion hidle
      · rw [client_leaves, client_settles, update_const,
          Connection.forget_of_unheld k' call.id hcall.2]

/-- To take results is no turn of a reader. -/
theorem filter_reads_takes (calls : List Settled) :
    (calls.map fun call => Event.takes call.id).filter (Event.reads n) = [] := by
  refine List.filter_eq_nil_iff.mpr fun e he => ?_
  rcases List.mem_map.mp he with ⟨call, _, rfl⟩
  exact Bool.false_ne_true

/-- Turns that fail some calls, one after another, and of which none is a reader's. -/
structure Sweeps (n : Nat) (ids : List String) (es : List Event) : Prop where
  fails : ∀ id ∈ ids, .fails n id ∈ es
  silent : es.filter (Event.reads n) = []

/-- Failing calls one after another, with each taking its result at once. -/
theorem failAll_leads (ids : List String) (k : Connection) (h : Inv s) (hquiet : Quiet s)
    (hk : s.client.connection? n = some k) (hswept : n ∈ s.swept) :
    ∃ es t, Leads s es t [] (k.failAll s.client.target ids).2 [] ∧ Sweeps n ids es
      ∧ t.client = s.client.update n fun _ => (k.failAll s.client.target ids).1 := by
  -- Each call is failed in the world that the ones before it have left.
  induction ids generalizing s k with
  | nil =>
      rcases leads_unchanged k h hquiet hk with ⟨t, hleads, hclient⟩
      exact ⟨[], t, hleads, ⟨fun _ hid => absurd hid List.not_mem_nil, rfl⟩, hclient⟩
  | cons id rest ih =>
      have hstep := Step.fails s n k id hswept hk
      rcases settles_leads k _ h hquiet hk hstep (Connection.settles_fail s.client.target k id)
        (Connection.length_fail s.client.target k id) with ⟨t, hfirst, hclient⟩
      have hk' : t.client.connection? n = some (k.fail s.client.target id).1 := by
        rw [hclient]
        exact s.client.connection?_update_self n _ k hk
      rcases ih _ (inv_of_reaches h hfirst.reaches) hfirst.quiet hk' (hfirst.swept n hswept) with
        ⟨es, u, hrest, hsweeps, hclient'⟩
      have htarget : t.client.target = s.client.target := by
        rw [hclient]
        rfl
      rw [htarget] at hrest hclient'
      refine ⟨_, u, hfirst.trans hrest, ⟨fun other hother => ?_, ?_⟩, ?_⟩
      · rcases List.mem_cons.mp hother with rfl | hother
        · exact List.mem_cons_self
        · exact List.mem_append_right _ (hsweeps.fails other hother)
      · rw [List.filter_append, hsweeps.silent, List.append_nil]
        exact filter_reads_takes _
      · rw [hclient', hclient, update_const]
        rfl

/-- The reader ends, and whoever waits is failed. -/
theorem shuts_leads (k : Connection) (inbox : Bytes) (h : Inv s) (hquiet : Quiet s)
    (hk : s.client.connection? n = some k)
    (hstep : Step s e (s.shuts n { k with inbox := inbox })) :
    ∃ es t, Leads s (e :: es) t [] (({ k with inbox := inbox } : Connection).finish
        s.client.target).2 [] ∧ Sweeps n k.ids es
      ∧ t.client = s.client.update n fun _ =>
        (({ k with inbox := inbox } : Connection).finish s.client.target).1 := by
  have hmarked := leads_of_waits hquiet (.single hstep)
    (fun _ => waits_const k { k.mark with isRead := false, inbox := inbox } hk rfl) rfl rfl
    hquiet.left rfl rfl fun _ hm => List.mem_cons_of_mem _ hm
  -- The mark is set; what is left is to fail whoever was found waiting then.
  rcases failAll_leads (n := n) k.ids { ({ k with inbox := inbox } : Connection).mark with
      isRead := false } (inv_of_reaches h hmarked.reaches) hmarked.quiet
    (s.client.connection?_update_self n _ k hk) List.mem_cons_self with
    ⟨es, t, hswept, hsweeps, hclient⟩
  refine ⟨es, t, hmarked.trans hswept, hsweeps, ?_⟩
  rw [hclient, client_shuts, update_const]
  rfl

/-- The turns of a reader at the end of what decoding found. -/
def Event.ending (n : Nat) : Option FrameError → List Event
  | none => []
  | some (.broken cause) => [.breaks n cause]
  | some e => [.rejects n e]

/-- The reader takes frames one after another and comes to their end. If it ends over something that
    was refused, whoever still waits is failed. -/
structure Takes (target : Target) (n : Nat) (k : Connection) (found : Frame.Drained)
    (es : List Event) : Prop where
  reads : es.filter (Event.reads n)
    = found.frames.map (Event.frame n) ++ Event.ending n found.error
  fails : ∀ e, found.error = some e → e.isBreakdown = false →
    ∀ id ∈ (k.takeFrames target found).1.ids, .fails n id ∈ es

/-- The reader meets what cannot be decoded. -/
theorem stop_leads (k : Connection) (x : FrameError) (rest : Bytes) (h : Inv s) (hquiet : Quiet s)
    (hk : s.client.connection? n = some k) (hread : k.isRead = true)
    (hfound : Frame.decode s.client.limit k.inbox = .refused x rest) :
    ∃ es t, Leads s es t [] (k.digest s.client.target ⟨[], some x, rest⟩).2 []
      ∧ Takes s.client.target n k ⟨[], some x, rest⟩ es
      ∧ t.client = s.client.update n fun _ =>
        (k.digest s.client.target ⟨[], some x, rest⟩).1 := by
  cases hbreak : x.isBreakdown with
  | true =>
      cases x with
      | io | json | invalidHeader | tooLarge => exact absurd hbreak Bool.false_ne_true
      | broken cause =>
          have hstep := Step.breaks s n k cause rest hk hread hfound
          refine ⟨_, _, leads_of_waits hquiet (.single hstep)
            (fun _ => waits_const k ({ k with inbox := rest } : Connection).halt hk rfl) rfl rfl
            hquiet.left rfl rfl fun _ hm => hm, ⟨?_, fun y hy hanswer => ?_⟩, rfl⟩
          · exact List.filter_cons_of_pos (beq_self_eq_true n)
          · rw [← Option.some.inj hy] at hanswer
            exact absurd hanswer.symm Bool.false_ne_true
  | false =>
      have hstep := Step.rejects s n k x rest hk hread hfound hbreak
      have hending : Event.ending n (some x) = [.rejects n x] := by
        cases x with
        | broken cause => exact absurd hbreak.symm Bool.false_ne_true
        | io | json | invalidHeader | tooLarge => rfl
      rcases shuts_leads k rest h hquiet hk hstep with ⟨es, t, hleads, hsweeps, hclient⟩
      simp only [Connection.digest, Connection.takeFrames, Connection.acceptAll,
        Connection.stop_of_answer _ _ hbreak, List.nil_append]
      refine ⟨_, t, hleads, ⟨?_, fun _ _ _ id hid => ?_⟩, hclient⟩
      · have hreads : (Event.rejects n x).reads n = true := beq_self_eq_true n
        rw [hending, List.filter_cons_of_pos hreads, hsweeps.silent]
        rfl
      · exact List.mem_cons_of_mem _ (hsweeps.fails id hid)

/-- What decoding finds in the inbox of a connection is taken by turns of its reader. -/
theorem drain_leads (fuel : Nat) (k : Connection) (h : Inv s) (hquiet : Quiet s)
    (hk : s.client.connection? n = some k) (hread : k.isRead = true) (found : Frame.Drained)
    (hfound : Frame.drainWith (Frame.decode s.client.limit) fuel [] k.inbox = found) :
    ∃ es t, Leads s es t [] (k.digest s.client.target found).2 []
      ∧ Takes s.client.target n k found es
      ∧ t.client = s.client.update n fun _ => (k.digest s.client.target found).1 := by
  -- With each frame the inbox gets shorter and the world another, and the rest of the frames is
  -- taken in that one.
  induction fuel generalizing s k found with
  | zero =>
      rcases leads_unchanged k h hquiet hk with ⟨t, hleads, hclient⟩
      rw [← hfound]
      exact ⟨[], t, hleads, ⟨rfl, fun e he => absurd he.symm (Option.some_ne_none e)⟩, hclient⟩
  | succ fuel ih =>
      cases hdecode : Frame.decode s.client.limit k.inbox with
      | nothing =>
          simp only [Frame.drainWith, hdecode, List.reverse_nil] at hfound
          rcases leads_unchanged k h hquiet hk with ⟨t, hleads, hclient⟩
          rw [← hfound]
          exact ⟨[], t, hleads, ⟨rfl, fun e he => absurd he.symm (Option.some_ne_none e)⟩, hclient⟩
      | refused x rest =>
          simp only [Frame.drainWith, hdecode, List.reverse_nil] at hfound
          rw [← hfound]
          exact stop_leads k x rest h hquiet hk hread hdecode
      | frame v rest =>
          simp only [Frame.drainWith, hdecode] at hfound
          rw [Frame.drainWith_acc, List.reverse_singleton, List.singleton_append] at hfound
          have hstep := Step.frame s n k v rest hk hread hdecode
          rcases settles_leads k _ h hquiet hk hstep
            (Connection.settles_acceptValue s.client.target { k with inbox := rest } v)
            (Connection.length_acceptValue s.client.target _ v) with ⟨t, hfirst, hclient⟩
          have hk' : t.client.connection? n
              = some (({ k with inbox := rest } : Connection).acceptValue s.client.target v).1 := by
            rw [hclient]
            exact s.client.connection?_update_self n _ k hk
          have hread' : (({ k with inbox := rest } : Connection).acceptValue s.client.target
              v).1.isRead = true := by
            rw [Connection.isRead_acceptValue]
            exact hread
          have hinbox : (({ k with inbox := rest } : Connection).acceptValue s.client.target
              v).1.inbox = rest := by
            rw [Connection.acceptValue_inbox]
          -- What was decoded with the old limit is what is decoded with the new one.
          have htarget : t.client.target = s.client.target ∧ t.client.limit = s.client.limit := by
            rw [hclient]
            exact ⟨rfl, rfl⟩
          rcases ih _ (inv_of_reaches h hfirst.reaches) hfirst.quiet hk' hread' _ rfl with
            ⟨es, u, hrest, htakes, hclient'⟩
          rw [htarget.1, htarget.2, hinbox] at hrest hclient' htakes
          rw [← hfound, Connection.digest_cons s.client.target k v rest]
          rw [Connection.acceptValue_inbox] at hfirst
          refine ⟨_, u, hfirst.trans hrest, ⟨?_, fun x hx hanswer id hid => ?_⟩, ?_⟩
          · have hreads : (Event.frame n v).reads n = true := beq_self_eq_true n
            rw [List.filter_append, List.filter_cons_of_pos hreads, filter_reads_takes,
              htakes.reads]
            rfl
          · refine List.mem_append_right _ (htakes.fails x hx hanswer id ?_)
            rwa [Connection.takeFrames_cons s.client.target k v rest] at hid
          · rw [hclient', hclient, update_const]

/-! ## Letting Go -/

/-- Connections that nobody uses any more are let go one by one. -/
theorem run_drops (sockets : List Nat) (s : World)
    (hslot : ∀ n ∈ sockets, s.client.slot ≠ some n) (hleaving : s.leaving = [])
    (hplace : ∀ n ∈ sockets, ∀ id, (s.place id).socket? ≠ some n) :
    Run s (sockets.map .drops) { s with client := s.client.keep fun n => n ∉ sockets } := by
  induction sockets generalizing s with
  | nil =>
      have hkeep : (s.client.keep fun n => n ∉ ([] : List Nat)) = s.client := by
        simp only [keep, List.not_mem_nil, not_false_eq_true, decide_true, List.filter_true]
      rw [hkeep]
      exact .nil s
  | cons n rest ih =>
      have hstep := Step.drops s n (hslot n List.mem_cons_self)
        (by rw [hleaving]; exact List.not_mem_nil) (hplace n List.mem_cons_self)
      have hrest := ih { s with client := s.client.without n }
        (fun m hm => hslot m (List.mem_cons_of_mem n hm)) hleaving
        (fun m hm => hplace m (List.mem_cons_of_mem n hm))
      have hkeep : ((s.client.without n).keep fun m => m ∉ rest)
          = s.client.keep fun m => m ∉ n :: rest := by
        rw [without, keep_keep]
        congr 1
        funext m
        simp only [List.mem_cons, not_or, Bool.decide_and, decide_not, bne]
        rfl
      rw [hkeep] at hrest
      exact .cons hstep hrest

/-- The sockets of the connections that are not in the slot and that nobody waits on. -/
def idleSockets (c : Client) : List Nat :=
  (c.connections.filter fun e => c.slot != some e.1 && e.2.waiters.isEmpty).map Prod.fst

theorem mem_idleSockets (c : Client) (k : Connection) (hnodup : c.sockets.Nodup)
    (hk : (n, k) ∈ c.connections) :
    n ∈ c.idleSockets ↔ (c.slot != some n && k.waiters.isEmpty) = true := by
  rw [idleSockets, List.mem_map]
  constructor
  · rintro ⟨e, he, rfl⟩
    rcases List.mem_filter.mp he with ⟨hmem, hidle⟩
    have hsame : e = (e.1, k) := List.inj_on_of_nodup_map hnodup hmem hk rfl
    rw [hsame] at hidle
    exact hidle
  · intro hidle
    exact ⟨(n, k), List.mem_filter.mpr ⟨hk, hidle⟩, rfl⟩

theorem letGo_eq (c : Client) (hnodup : c.sockets.Nodup) :
    c.letGo = (c.keep fun n => n ∉ c.idleSockets, c.idleSockets.map .closed) := by
  -- What is kept is told by the socket alone, since every socket is kept once.
  have hkept : (c.connections.filter fun e => !(c.slot != some e.1 && e.2.waiters.isEmpty))
      = c.connections.filter fun e => decide (e.1 ∉ c.idleSockets) := by
    refine List.filter_congr fun e he => ?_
    rw [decide_not, Bool.not_inj_iff, Bool.eq_iff_iff, decide_eq_true_iff]
    exact (mem_idleSockets c e.2 hnodup he).symm
  rw [letGo, keep, hkept, idleSockets, List.map_map]
  rfl

/-- Nobody waits on a connection that is let go, and it is not in the slot. -/
theorem not_waits_of_idle (c : Client) (hnodup : c.sockets.Nodup) (hidle : n ∈ c.idleSockets) :
    c.slot ≠ some n ∧ ∀ id, ¬ c.Waits id n := by
  rcases List.mem_map.mp hidle with ⟨e, he, rfl⟩
  rcases List.mem_filter.mp he with ⟨hmem, hboth⟩
  rcases Bool.and_eq_true_iff.mp hboth with ⟨hslot, hempty⟩
  refine ⟨bne_iff_ne.mp hslot, ?_⟩
  rintro id ⟨k, hk, hheld⟩
  rw [c.connection?_of_mem e.1 e.2 hnodup hmem] at hk
  rw [← Option.some.inj hk, Connection.held, List.isEmpty_iff.mp hempty] at hheld
  exact absurd hheld Bool.false_ne_true

/-- In a quiet world, letting go all connections that nobody waits on is a row of turns. -/
theorem letGo_leads (h : Inv s) (hquiet : Quiet s) :
    ∃ t, Leads s (s.client.idleSockets.map .drops) t [] [] []
      ∧ t.client = s.client.letGo.1 := by
  -- In a quiet world, whoever uses a connection waits on it.
  have hunused : ∀ n ∈ s.client.idleSockets, ∀ id, (s.place id).socket? ≠ some n :=
    fun n hn id hplace =>
      (not_waits_of_idle s.client h.nodup hn).2 id (hquiet.settled id n hplace).2
  have hrun := run_drops s.client.idleSockets s
    (fun n hn => (not_waits_of_idle s.client h.nodup hn).1) hquiet.left hunused
  refine ⟨_, ⟨hrun, ⟨hquiet.unlocked, hquiet.left, fun id n hplace => ?_⟩,
    (List.append_nil _).symm, (List.append_nil _).symm, fun _ _ hidle => hidle, fun _ hn => hn⟩, ?_⟩
  · rcases hquiet.settled id n hplace with ⟨hwaiting, k, hk, hheld⟩
    refine ⟨hwaiting, k, (s.client.connection?_keep n _ ?_).trans hk, hheld⟩
    exact decide_eq_true fun hidle => hunused n hidle id hplace
  · rw [letGo_eq s.client h.nodup]

end Client

end Gateway
