import Gateway.Proofs.Client.Operations

/-!
# One Connection After Another

Calls share the connection in the slot as long as it is open, and a call that finds none that is
open makes the next. Once a connection is marked it is out of use for good, although calls that
were given it before may still be on it; and since a connection that was taken out of the slot to
be closed is as good as marked, there is never more than one that calls can be given.

The reason is that what there is to use only ever comes from opening. A turn may take it away, by
marking the connection or taking it out of the slot, but no turn brings back what was there before:
the slot is filled by calls that connect, and they fill it with what they opened. So a run is
described by what it opened and by whom it gave what (`Grows`), and such descriptions compose. If
the same connection is there to use at the beginning of a run and at its end, it was there all the
time; for in between it would have had to come back.

That a call that connects finds the slot no better at the end than at the beginning is the work of
the lock. Otherwise two calls that both found nothing could each open a connection, and the one
that is replaced would be left with a call that nobody else shares it with.

## Main definitions

* `Kept`: A turn that opens nothing and gives nobody a connection.
* `Grows`: What a run opened, and whom it gave what.
* `Event.Marks`: A turn that marks a connection.
* `LifeCycle`: What there is to say of the connections of a client, in one world.

## Theorems

* `step_cases`: Only two kinds of turns give a call a connection.
* `grows_of_reaches`: What a run adds.
* `flag?_of_marks`, `marks_of_flag?`: What marks a connection, and that nothing else does.
* `connections_succeed`: The life cycle of connections.
-/

namespace Gateway

namespace Client

/-- A turn that opens nothing, gives nobody a connection and leaves no more to use than there
    was. -/
structure Kept (s t : World) : Prop where
  opened : t.opened = s.opened
  issued : t.issued = s.issued
  ready : ∀ n, t.client.ready? = some n → s.client.ready? = some n

variable {s t u : World} {e : Event} {id : String} {n : Nat}

theorem kept_refl (s : World) : Kept s s := ⟨rfl, rfl, fun _ hn => hn⟩

theorem kept_enters (p : Place) : Kept s (s.enters id p) := ⟨rfl, rfl, fun _ hn => hn⟩

theorem kept_changes (f : Connection → Connection)
    (hopen : ∀ k, s.client.connection? n = some k → (f k).isOpen = true → k.isOpen = true) :
    Kept s (s.changes n f) :=
  ⟨rfl, rfl, ready?_of_changes f hopen⟩

theorem kept_leaves (results : List CallResult) : Kept s (s.leaves id n results) :=
  ⟨rfl, rfl, ready?_of_changes (·.forget id) fun _ _ hopen => hopen⟩

theorem Kept.trans (hst : Kept s t) (htu : Kept t u) : Kept s u :=
  ⟨htu.opened.trans hst.opened, htu.issued.trans hst.issued,
    fun n hn => hst.ready n (htu.ready n hn)⟩

theorem kept_settles (k : Connection) (did : Connection × List Settled)
    (hk : s.client.connection? n = some k) (hopen : did.1.isOpen = k.isOpen) :
    Kept s (s.settles n did) := by
  refine ⟨rfl, rfl, ready?_of_changes (fun _ => did.1) fun k' hk' hdid => ?_⟩
  rw [← Option.some.inj (hk.symm.trans hk'), ← hopen]
  exact hdid

theorem kept_shuts (k : Connection) : Kept s (s.shuts n k) :=
  ⟨rfl, rfl, ready?_of_changes _ fun _ _ hopen => absurd hopen Bool.false_ne_true⟩

theorem kept_writes (network : Network) (p : Request) : Kept s (s.writes id n network p) := by
  rcases writes_cases s id n p network with ⟨_, _, hwrites⟩ | ⟨_, _, _, _, _, hwrites⟩ |
    ⟨_, _, _, hwrites⟩
  · rw [hwrites]
    exact kept_leaves _
  · rw [hwrites]
    exact (kept_changes _ fun _ _ hopen => absurd hopen Bool.false_ne_true).trans (kept_leaves _)
  · have hdrained : Kept s (s.changes n .drain) := kept_changes .drain fun _ _ hopen => hopen
    rw [hwrites]
    cases p.isEvent with
    | true => exact hdrained.trans (kept_leaves _)
    | false => exact hdrained.trans (kept_enters _)

/-- There are two kinds of turns that give a call a connection: it finds one, or it has made one. -/
theorem step_cases (hstep : Step s e t) :
    (∃ id n, e = .finds id ∧ s.client.ready? = some n ∧ t = s.gives id n)
      ∨ (∃ id n, e = .connects id n ∧ s.place id = .connecting ∧ n ∉ s.opened
        ∧ t = s.installs id n)
      ∨ Kept s t := by
  -- All others change a connection without opening it, or have to do with no connection at all.
  cases hstep with
  | finds id n hplace hlock hready => exact Or.inl ⟨id, n, rfl, hready, rfl⟩
  | connects id n hplace hnew => exact Or.inr (Or.inl ⟨id, n, rfl, hplace, hnew, rfl⟩)
  | dials id hplace hlock hready => exact Or.inr (Or.inr ⟨rfl, rfl, fun _ hn => hn⟩)
  | refused id kind text hplace => exact Or.inr (Or.inr ⟨rfl, rfl, fun _ hn => hn⟩)
  | abandons id hplace => exact Or.inr (Or.inr ⟨rfl, rfl, fun _ hn => hn⟩)
  | admits id n hplace hflag => exact Or.inr (Or.inr (kept_enters _))
  | closesNone hlock hslot => exact Or.inr (Or.inr (kept_refl s))
  | expects id n hplace =>
      exact Or.inr (Or.inr ⟨rfl, rfl, ready?_of_changes (·.expect id) fun _ _ hopen => hopen⟩)
  | repels id n hplace hflag => exact Or.inr (Or.inr (kept_leaves _))
  | takes id n m r hplace hmail => exact Or.inr (Or.inr (kept_leaves _))
  | cancels id n hplace => exact Or.inr (Or.inr (kept_leaves _))
  | writes id n network p hplace => exact Or.inr (Or.inr (kept_writes network p))
  | interrupts id n p frame hplace hframe =>
      rw [interrupts_eq s id n p hframe]
      exact Or.inr (Or.inr ((kept_changes (·.fill frame) fun _ _ hopen => hopen).trans
        (kept_leaves _)))
  | flushes n count => exact Or.inr (Or.inr (kept_changes _ fun _ _ hopen => hopen))
  | arrives n octets => exact Or.inr (Or.inr (kept_changes _ fun _ _ hopen => hopen))
  | frame n k body rest hk hread hfound =>
      exact Or.inr (Or.inr (kept_settles k _ hk (Connection.isOpen_acceptValue _ _)))
  | breaks n k cause rest hk hread hfound =>
      refine Or.inr (Or.inr (kept_changes _ fun k' hk' hopen => ?_))
      rw [← Option.some.inj (hk.symm.trans hk')]
      exact hopen
  | rejects n k e rest hk hread hfound hanswer => exact Or.inr (Or.inr (kept_shuts _))
  | ends n k hk hread => exact Or.inr (Or.inr (kept_shuts _))
  | closes n hlock hslot =>
      exact Or.inr (Or.inr ⟨rfl, rfl, fun m hm => absurd hm (Option.some_ne_none m).symm⟩)
  | marks n hleaving =>
      exact Or.inr (Or.inr ⟨rfl, rfl, ready?_of_changes .mark
        fun _ _ hopen => absurd hopen Bool.false_ne_true⟩)
  | fails n k id hswept hk =>
      exact Or.inr (Or.inr (kept_settles k _ hk (Connection.isOpen_fail k id)))
  | drops n hslot hleaving hplace =>
      exact Or.inr (Or.inr ⟨rfl, rfl, fun m => s.client.ready?_of_without n m hslot⟩)

/-! ## What a Run Adds -/

/-- What a run adds to the history, and what there is to use after it. -/
structure Grows (s t : World) (more : List Nat) (later : List (String × Nat)) : Prop where
  opened : t.opened = s.opened ++ more
  issued : t.issued = s.issued ++ later
  fresh : ∀ n ∈ more, n ∉ s.opened
  -- What there is to use, and what calls were given, was there to use before or was opened.
  ready : ∀ n, t.client.ready? = some n → s.client.ready? = some n ∨ n ∈ more
  given : ∀ call ∈ later, s.client.ready? = some call.2 ∨ call.2 ∈ more
  -- Nothing is opened as long as there is something to use.
  shared : ∀ n, s.client.ready? = some n → t.client.ready? = some n → more = []

theorem mem_opened_of_ready (h : Inv s) (hready : s.client.ready? = some n) : n ∈ s.opened :=
  h.opened n (h.slot n ((ready?_eq_some_iff _ _).mp hready).1)

theorem grows_of_kept (h : Kept s t) : Grows s t [] [] where
  opened := h.opened.trans (List.append_nil _).symm
  issued := h.issued.trans (List.append_nil _).symm
  fresh := fun _ hn => absurd hn List.not_mem_nil
  ready := fun n hn => Or.inl (h.ready n hn)
  given := fun _ hcall => absurd hcall List.not_mem_nil
  shared := fun _ _ _ => rfl

theorem grows_step (h : Inv s) (hstep : Step s e t) : ∃ more later, Grows s t more later := by
  rcases step_cases hstep with ⟨id, n, _, hready, rfl⟩ | ⟨id, n, _, hplace, hnew, rfl⟩ | hkept
  · refine ⟨[], [(id, n)], (List.append_nil _).symm, rfl, fun _ hn => absurd hn List.not_mem_nil,
      fun m hm => Or.inl hm, fun call hcall => Or.inl ?_, fun _ _ _ => rfl⟩
    rw [List.mem_singleton.mp hcall]
    exact hready
  · -- Whoever connects has the lock, so there was nothing to use and nothing is lost.
    have hnone : s.client.ready? = none := h.vacant (by
      rw [(h.locked id).mp hplace]
      exact Option.some_ne_none id)
    refine ⟨[n], [(id, n)], rfl, rfl, fun m hm => ?_, fun m hm => Or.inr ?_,
      fun call hcall => Or.inr ?_, fun m hm => ?_⟩
    · rw [List.mem_singleton.mp hm]
      exact hnew
    · have hready := s.client.ready?_connect n fun hc => hnew (h.opened n hc)
      rw [Option.some.inj (hm.symm.trans hready)]
      exact List.mem_singleton_self n
    · rw [List.mem_singleton.mp hcall]
      exact List.mem_singleton_self n
    · rw [hnone] at hm
      exact absurd hm (Option.some_ne_none m).symm
  · exact ⟨[], [], grows_of_kept hkept⟩

theorem Grows.trans {more more' : List Nat} {later later' : List (String × Nat)} (h : Inv s)
    (hst : Grows s t more later) (htu : Grows t u more' later') :
    Grows s u (more ++ more') (later ++ later') where
  opened := by rw [htu.opened, hst.opened, List.append_assoc]
  issued := by rw [htu.issued, hst.issued, List.append_assoc]
  fresh := by
    intro n hn hopened
    rcases List.mem_append.mp hn with hn | hn
    · exact hst.fresh n hn hopened
    · refine htu.fresh n hn ?_
      rw [hst.opened]
      exact List.mem_append_left _ hopened
  ready := by
    intro n hn
    rcases htu.ready n hn with hn | hn
    · exact (hst.ready n hn).imp_right (List.mem_append_left _)
    · exact Or.inr (List.mem_append_right _ hn)
  given := by
    intro call hcall
    rcases List.mem_append.mp hcall with hcall | hcall
    · exact (hst.given call hcall).imp_right (List.mem_append_left _)
    · rcases htu.given call hcall with hready | hmore
      · exact (hst.ready call.2 hready).imp_right (List.mem_append_left _)
      · exact Or.inr (List.mem_append_right _ hmore)
  shared := by
    -- What is there to use at the beginning and at the end was there in between as well, since
    -- otherwise it would have had to be opened again.
    intro n hs hu
    rcases htu.ready n hu with ht | hmore
    · rw [hst.shared n hs ht, htu.shared n ht hu, List.append_nil]
    · refine absurd ?_ (htu.fresh n hmore)
      rw [hst.opened]
      exact List.mem_append_left _ (mem_opened_of_ready h hs)

theorem grows_of_reaches (h : Inv s) (hreaches : Reaches s t) :
    ∃ more later, Grows s t more later := by
  induction hreaches with
  | refl => exact ⟨[], [], grows_of_kept (kept_refl s)⟩
  | tail hreaches hstep ih =>
      rcases ih with ⟨more, later, hgrows⟩
      rcases hstep with ⟨e, hstep⟩
      rcases grows_step (inv_of_reaches h hreaches) hstep with ⟨more', later', hstepped⟩
      exact ⟨_, _, hgrows.trans h hstepped⟩

/-! ## Marks -/

/-- What marks the connection over a socket: that its reader meets the end of the stream or what is
    no frame, that it is closed, and that writing a packet fails which is a frame. -/
def Event.Marks (s : World) (n : Nat) : Event → Prop
  | .ends m | .rejects m _ | .marks m => m = n
  | .writes id network p =>
    (s.place id).socket? = some n ∧ network.writeFault.isSome = true
      ∧ ∃ frame, Frame.encode s.client.limit p.toText [] = .ok frame
  | _ => False

theorem flag?_leaves (m : Nat) (results : List CallResult) :
    (s.leaves id m results).client.flag? n = s.client.flag? n :=
  flag?_update_of_isOpen s.client m n (·.forget id) fun _ _ => rfl

theorem flag?_marked (f : Connection → Connection) (hclosed : ∀ k, (f k).isOpen = false)
    (hsocket : n ∈ s.client.sockets) : (s.client.update n f).flag? n = some false := by
  rcases s.client.exists_connection n hsocket with ⟨k, hk⟩
  rw [flag?_eq_some _ n (f k) (s.client.connection?_update_self n f k hk), hclosed]

theorem flag?_of_marks (h : Inv s) (hstep : Step s e t) (hmarks : e.Marks s n) :
    t.client.flag? n = some false := by
  cases hstep with
  | ends m k hk hread =>
      rw [← show m = n from hmarks]
      exact flag?_marked _ (fun _ => rfl) (mem_sockets _ _ _ hk)
  | rejects m k e rest hk hread hfound hanswer =>
      rw [← show m = n from hmarks]
      exact flag?_marked _ (fun _ => rfl) (mem_sockets _ _ _ hk)
  | marks m hleaving =>
      rw [← show m = n from hmarks]
      exact flag?_marked _ (fun _ => rfl) (h.leaving m hleaving)
  | writes id m network p hplace =>
      rcases hmarks with ⟨hsocket, hfault, frame, hframe⟩
      have hm : m = n := Option.some.inj ((socket?_of_writer hplace).symm.trans hsocket)
      rw [hm]
      -- The packet is a frame and the write fails, which leaves one of three cases.
      rcases writes_cases s id n p network with ⟨e, hencode, _⟩ | ⟨_, _, _, _, _, hwrites⟩ |
        ⟨_, _, hnone, _⟩
      · rw [hencode] at hframe
        cases hframe
      · rw [hwrites]
        exact (flag?_leaves n _).trans (flag?_marked _ (fun _ => rfl) (h.placed id n hsocket).1)
      · rw [hnone] at hfault
        exact absurd hfault Bool.false_ne_true
  | _ => exact hmarks.elim

/-- Every other turn leaves the mark of a connection alone, unless it lets the connection go. A
    connection that is let go has no mark, which is not the same as having none set. -/
theorem flag?_step (h : Inv s) (hstep : Step s e t) (hsocket : n ∈ s.client.sockets) :
    e.Marks s n ∨ t.client.flag? n = s.client.flag? n ∨ t.client.flag? n = none := by
  have hother : ∀ (m : Nat) (f : Connection → Connection), m ≠ n →
      (s.client.update m f).flag? n = s.client.flag? n := fun m f hne => by
    rw [flag?_update, if_neg fun hc => hne hc.symm]
  cases hstep with
  | finds id m hplace hlock hready => exact Or.inr (Or.inl rfl)
  | dials id hplace hlock hready => exact Or.inr (Or.inl rfl)
  | connects id m hplace hnew =>
      -- The connection that is made is a new one, so the old ones are found as before.
      have hm : m ∉ s.client.sockets := fun hc => hnew (h.opened m hc)
      have hne : n ≠ m := fun hc => hm (hc ▸ hsocket)
      refine Or.inr (Or.inl (congrArg (Option.map Connection.isOpen) ?_))
      exact (s.client.connection?_connect m n hm).trans (if_neg hne)
  | refused id kind text hplace => exact Or.inr (Or.inl rfl)
  | abandons id hplace => exact Or.inr (Or.inl rfl)
  | expects id m hplace =>
      exact Or.inr (Or.inl (flag?_update_of_isOpen s.client m n (·.expect id) fun _ _ => rfl))
  | admits id m hplace hflag => exact Or.inr (Or.inl rfl)
  | repels id m hplace hflag => exact Or.inr (Or.inl (flag?_leaves m _))
  | writes id m network p hplace =>
      have hdrained : (s.client.update m .drain).flag? n = s.client.flag? n :=
        flag?_update_of_isOpen s.client m n .drain fun _ _ => rfl
      rcases writes_cases s id m p network with ⟨_, _, hwrites⟩ |
        ⟨frame, kind, text, hframe, hfault, hwrites⟩ | ⟨_, _, _, hwrites⟩
      · rw [hwrites]
        exact Or.inr (Or.inl (flag?_leaves m _))
      · by_cases hm : m = n
        · exact Or.inl ⟨hm ▸ socket?_of_writer hplace, by rw [hfault, Option.isSome_some], frame,
            hframe⟩
        · rw [hwrites]
          exact Or.inr (Or.inl ((flag?_leaves m _).trans (hother m _ hm)))
      · rw [hwrites]
        cases p.isEvent with
        | true => exact Or.inr (Or.inl ((flag?_leaves m _).trans hdrained))
        | false => exact Or.inr (Or.inl hdrained)
  | interrupts id m p frame hplace hframe =>
      rw [interrupts_eq s id m p hframe]
      exact Or.inr (Or.inl ((flag?_leaves m _).trans
        (flag?_update_of_isOpen s.client m n (·.fill frame) fun _ _ => rfl)))
  | takes id m l r hplace hmail => exact Or.inr (Or.inl (flag?_leaves m _))
  | cancels id m hplace => exact Or.inr (Or.inl (flag?_leaves m _))
  | flushes m count =>
      exact Or.inr (Or.inl (flag?_update_of_isOpen s.client m n _ fun _ _ => rfl))
  | arrives m octets =>
      exact Or.inr (Or.inl (flag?_update_of_isOpen s.client m n _ fun _ _ => rfl))
  | frame m k body rest hk hread hfound =>
      refine Or.inr (Or.inl (flag?_update_of_isOpen s.client m n _ fun k' hk' => ?_))
      rw [← Option.some.inj (hk.symm.trans hk')]
      exact Connection.isOpen_acceptValue _ body
  | breaks m k cause rest hk hread hfound =>
      refine Or.inr (Or.inl (flag?_update_of_isOpen s.client m n _ fun k' hk' => ?_))
      rw [← Option.some.inj (hk.symm.trans hk')]
      rfl
  | rejects m k e rest hk hread hfound hanswer =>
      by_cases hm : m = n
      · exact Or.inl hm
      · exact Or.inr (Or.inl (hother m _ hm))
  | ends m k hk hread =>
      by_cases hm : m = n
      · exact Or.inl hm
      · exact Or.inr (Or.inl (hother m _ hm))
  | closesNone hlock hslot => exact Or.inr (Or.inl rfl)
  | closes m hlock hslot => exact Or.inr (Or.inl rfl)
  | marks m hleaving =>
      by_cases hm : m = n
      · exact Or.inl hm
      · exact Or.inr (Or.inl (hother m _ hm))
  | fails m k id hswept hk =>
      refine Or.inr (Or.inl (flag?_update_of_isOpen s.client m n _ fun k' hk' => ?_))
      rw [← Option.some.inj (hk.symm.trans hk')]
      exact Connection.isOpen_fail k id
  | drops m hslot hleaving hplace =>
      refine Or.inr ?_
      by_cases hm : n = m
      · rw [hm]
        exact Or.inr (congrArg (Option.map Connection.isOpen) (s.client.connection?_without_self m))
      · exact Or.inl (congrArg (Option.map Connection.isOpen) (s.client.connection?_without m n hm))

theorem marks_of_flag? (h : Inv s) (hstep : Step s e t) (hopen : s.client.flag? n = some true)
    (hclosed : t.client.flag? n = some false) : e.Marks s n := by
  have hsocket : n ∈ s.client.sockets := by
    rcases Option.map_eq_some_iff.mp hopen with ⟨k, hk, _⟩
    exact s.client.mem_sockets n k hk
  rcases flag?_step h hstep hsocket with hmarks | hsame | hnone
  · exact hmarks
  · rw [hsame, hopen] at hclosed
    exact absurd (Option.some.inj hclosed).symm Bool.false_ne_true
  · rw [hnone] at hclosed
    exact absurd hclosed (Option.some_ne_none false).symm

/-! ## The Life Cycle -/

/-- There is nothing to use: no connection is in the slot, or the one in it is marked. -/
def Vacant (c : Client) : Prop :=
  c.slot = none ∨ ∃ n, c.slot = some n ∧ c.flag? n = some false

theorem ready?_eq_none_iff (h : Inv s) : s.client.ready? = none ↔ Vacant s.client := by
  cases hslot : s.client.slot with
  | none =>
      refine iff_of_true ?_ (Or.inl hslot)
      rw [ready?, hslot, Option.bind_none]
  | some n =>
      rcases s.client.exists_connection n (h.slot n hslot) with ⟨k, hk⟩
      have hflag := s.client.flag?_eq_some n k hk
      cases hopen : k.isOpen with
      | true =>
          rw [hopen] at hflag
          have hready := (s.client.ready?_eq_some_iff n).mpr ⟨hslot, hflag⟩
          refine iff_of_false (fun hc => Option.some_ne_none n (hready.symm.trans hc)) ?_
          rintro (hc | ⟨m, hm, hmarked⟩)
          · exact Option.some_ne_none n (hslot.symm.trans hc)
          · rw [← Option.some.inj (hslot.symm.trans hm), hflag] at hmarked
            exact Bool.false_ne_true (Option.some.inj hmarked).symm
      | false =>
          rw [hopen] at hflag
          refine iff_of_true (Option.eq_none_iff_forall_ne_some.mpr fun m hm => ?_)
            (Or.inr ⟨n, hslot, hflag⟩)
          rcases (s.client.ready?_eq_some_iff m).mp hm with ⟨hslot', hflag'⟩
          rw [← Option.some.inj (hslot.symm.trans hslot'), hflag] at hflag'
          exact Bool.false_ne_true (Option.some.inj hflag')

/-- What there is to say of the connections of a client in a world, of the turns that it may take
    and of the runs that begin with it. -/
structure LifeCycle (s : World) : Prop where
  /-- Nothing opens a connection but a call that connects, and it opens a new one in the way of
      `acquire`. -/
  opening : ∀ e t, Step s e t → t.opened ≠ s.opened → ∃ id n, e = .connects id n
    ∧ s.place id = .connecting ∧ n ∉ s.opened ∧ t.opened = s.opened ++ [n]
    ∧ s.client.acquire (.connected n) = (t.client, [.opened n], .ok n)
  /-- From when a call begins to connect until it ends there is nothing to use. -/
  connecting : ∀ id, s.place id = .connecting → Vacant s.client
  /-- While the lock is free, a call that finds a connection to use is given it and cannot begin to
      connect. -/
  finding : ∀ id n, s.place id = .idle → s.lock = none → s.client.ready? = some n →
    Step s (.finds id) (s.gives id n) ∧ ∀ t, ¬ Step s (.dials id) t
  /-- If the same connection is there to use before and after a run, nothing was opened in it, and
      every call that was given a connection was given that one. -/
  sharing : ∀ n t, s.client.ready? = some n → Reaches s t → t.client.ready? = some n →
    t.opened = s.opened ∧ ∃ later, t.issued = s.issued ++ later ∧ ∀ call ∈ later, call.2 = n
  /-- The end of the stream, what is no frame, a write that fails and closing mark the connection
      that they are about. -/
  marking : ∀ e t n, Step s e t → e.Marks s n → t.client.flag? n = some false
  /-- Nothing else marks one. -/
  keeping : ∀ e t n, Step s e t → s.client.flag? n = some true → t.client.flag? n = some false →
    e.Marks s n
  /-- A packet that is no frame ends its call, and leaves the slot and all marks as they were. -/
  encoding : ∀ id network p x t, Step s (.writes id network p) t →
    Frame.encode s.client.limit p.toText [] = .error x →
    (∀ n, t.client.flag? n = s.client.flag? n) ∧ t.client.slot = s.client.slot
      ∧ t.results = s.results ++ [⟨id, .error (.codec s.client.target x)⟩]
  /-- Closing takes the connection out of the slot, and what was taken out can be marked. -/
  closing : (∀ n t, s.client.slot = some n → Step s .closes t →
    t.client.slot = none ∧ n ∈ t.leaving) ∧ ∀ n ∈ s.leaving, ∃ t, Step s (.marks n) t
  /-- A connection that is marked, or taken out of the slot, is never to be used again, and no call
      is given it any more. -/
  retiring : ∀ e t n, Step s e t → e.Marks s n ∨ (e = .closes ∧ s.client.slot = some n) →
    ∀ u, Reaches t u → u.client.ready? ≠ some n
      ∧ ∃ later, u.issued = t.issued ++ later ∧ ∀ call ∈ later, call.2 ≠ n
  /-- If there is nothing to use, then whatever calls are given later is opened later, and is none
      of the connections there were. -/
  renewing : Vacant s.client → ∀ t, Reaches s t → ∃ more later, t.opened = s.opened ++ more
    ∧ t.issued = s.issued ++ later ∧ (∀ n ∈ more, n ∉ s.opened) ∧ ∀ call ∈ later, call.2 ∈ more
  /-- If there is nothing to use and the lock is free, a call cannot but connect, and if it is not
      refused it is given a new connection, which then is there to use. -/
  trying : ∀ id, s.place id = .idle → s.lock = none → Vacant s.client →
    (∀ t, ¬ Step s (.finds id) t) ∧ ∃ t, Step s (.dials id) t ∧ ∀ n, n ∉ s.opened →
      ∃ u, Step t (.connects id n) u ∧ u.place id = .given n ∧ u.client.ready? = some n
        ∧ u.opened = s.opened ++ [n]
  /-- A call that is refused returns that, and leaves the client as it was and the lock free: there
      is nothing to use still, so that the next call tries again. -/
  refusing : ∀ id kind text t, Step s (.refused id kind text) t → t.client = s.client
    ∧ t.opened = s.opened ∧ t.lock = none ∧ Vacant t.client
    ∧ t.results = s.results ++ [⟨id, .error (.transport s.client.target kind text)⟩]
    ∧ s.client.acquire (.failed kind text)
      = (t.client, [], .error (.transport s.client.target kind text))
  /-- Closing a client with nothing in the slot does nothing. -/
  idling : s.client.slot = none →
    s.client.close = (s.client, []) ∧ ∀ t, Step s .closes t → t = s
  /-- What comes in over a connection settles calls that were given that connection and no other. -/
  settling : (∀ n body t, Step s (.frame n body) t → ∃ calls : List Settled,
    t.mail = s.mail ++ calls.map (fun call => (n, call)) ∧ ∀ call ∈ calls, (call.id, n) ∈ s.issued)
    ∧ (∀ n call, (n, call) ∈ s.mail → (call.id, n) ∈ s.issued)
    ∧ ∀ id m n, (id, m) ∈ s.issued → (id, n) ∈ s.issued → m = n

/-- A connection that was opened and is not there to use will never be. -/
theorem retired_of_reaches (h : Inv s) (hopened : n ∈ s.opened) (hready : s.client.ready? ≠ some n)
    (hreaches : Reaches s t) : t.client.ready? ≠ some n
      ∧ ∃ later, t.issued = s.issued ++ later ∧ ∀ call ∈ later, call.2 ≠ n := by
  rcases grows_of_reaches h hreaches with ⟨more, later, hgrows⟩
  -- It is not there now, and what is opened later is another one.
  have hnever : ¬ (s.client.ready? = some n ∨ n ∈ more) := by
    rintro (hc | hc)
    · exact hready hc
    · exact hgrows.fresh n hc hopened
  refine ⟨fun hc => hnever (hgrows.ready n hc), later, hgrows.issued, fun call hcall hc => ?_⟩
  have hgiven := hgrows.given call hcall
  rw [hc] at hgiven
  exact hnever hgiven

theorem shared_of_reaches (h : Inv s) (hready : s.client.ready? = some n) (hreaches : Reaches s t)
    (hready' : t.client.ready? = some n) : t.opened = s.opened
      ∧ ∃ later, t.issued = s.issued ++ later ∧ ∀ call ∈ later, call.2 = n := by
  rcases grows_of_reaches h hreaches with ⟨more, later, hgrows⟩
  have hmore := hgrows.shared n hready hready'
  refine ⟨by rw [hgrows.opened, hmore, List.append_nil], later, hgrows.issued, fun call hcall => ?_⟩
  rcases hgrows.given call hcall with hc | hc
  · exact (Option.some.inj (hready.symm.trans hc)).symm
  · rw [hmore] at hc
    exact absurd hc List.not_mem_nil

theorem writes_of_unencoded (network : Network) (p : Request) (x : FrameError)
    (hstep : Step s (.writes id network p) t)
    (hencode : Frame.encode s.client.limit p.toText [] = .error x) :
    ∃ m, t = s.leaves id m [.error (.codec s.client.target x)] := by
  cases hstep with
  | writes _ n _ _ hplace =>
      refine ⟨n, ?_⟩
      rw [writes_eq, hencode]

theorem opening_of_step (h : Inv s) (hstep : Step s e t) (hopened : t.opened ≠ s.opened) :
    ∃ id n, e = .connects id n ∧ s.place id = .connecting ∧ n ∉ s.opened
      ∧ t.opened = s.opened ++ [n]
      ∧ s.client.acquire (.connected n) = (t.client, [.opened n], .ok n) := by
  rcases step_cases hstep with ⟨_, _, _, _, rfl⟩ | ⟨id, n, rfl, hplace, hnew, rfl⟩ | hkept
  · exact absurd rfl hopened
  · have hready := h.vacant (by rw [(h.locked id).mp hplace]; exact Option.some_ne_none id)
    exact ⟨id, n, rfl, hplace, hnew, rfl, s.client.acquire_of_vacant n hready⟩
  · exact absurd hkept.opened hopened

/-- A mark, or being taken out of the slot, puts a connection out of use. -/
theorem not_ready_of_step (h : Inv s) (hstep : Step s e t)
    (hends : e.Marks s n ∨ (e = .closes ∧ s.client.slot = some n)) :
    n ∈ t.opened ∧ t.client.ready? ≠ some n := by
  have hinv := inv_step s t e h hstep
  rcases hends with hmarks | ⟨rfl, hslot⟩
  · have hflag := flag?_of_marks h hstep hmarks
    rcases Option.map_eq_some_iff.mp hflag with ⟨k, hk, _⟩
    refine ⟨hinv.opened n (t.client.mem_sockets n k hk), fun hready => ?_⟩
    rw [((ready?_eq_some_iff _ _).mp hready).2] at hflag
    exact Bool.false_ne_true (Option.some.inj hflag).symm
  · cases hstep with
    | closesNone _ hnone => exact absurd (hslot.symm.trans hnone) (Option.some_ne_none n)
    | closes m _ _ =>
        exact ⟨h.opened n (h.slot n hslot),
          fun hready => absurd hready (Option.some_ne_none n).symm⟩

theorem lifeCycle_of_inv (h : Inv s) : LifeCycle s where
  opening := fun e t => opening_of_step h
  connecting := by
    intro id hplace
    refine (ready?_eq_none_iff h).mp (h.vacant ?_)
    rw [(h.locked id).mp hplace]
    exact Option.some_ne_none id
  finding := by
    intro id n hplace hlock hready
    refine ⟨Step.finds s id n hplace hlock hready, fun t hstep => ?_⟩
    cases hstep with
    | dials _ _ _ hnone => exact Option.some_ne_none n (hready.symm.trans hnone)
  sharing := fun n t => shared_of_reaches h
  marking := fun e t n => flag?_of_marks h
  keeping := fun e t n => marks_of_flag? h
  encoding := by
    intro id network p x t hstep hencode
    rcases writes_of_unencoded network p x hstep hencode with ⟨m, rfl⟩
    exact ⟨fun n => flag?_leaves m _, rfl, rfl⟩
  closing := by
    refine ⟨fun n t hslot hstep => ?_, fun n hn => ⟨_, Step.marks s n hn⟩⟩
    cases hstep with
    | closesNone _ hnone => exact absurd (hslot.symm.trans hnone) (Option.some_ne_none n)
    | closes m _ hslot' =>
        rw [Option.some.inj (hslot.symm.trans hslot')]
        exact ⟨rfl, List.mem_cons_self⟩
  retiring := by
    intro e t n hstep hends u hreaches
    rcases not_ready_of_step h hstep hends with ⟨hopened, hready⟩
    exact retired_of_reaches (inv_step s t e h hstep) hopened hready hreaches
  renewing := by
    intro hvacant t hreaches
    rcases grows_of_reaches h hreaches with ⟨more, later, hgrows⟩
    refine ⟨more, later, hgrows.opened, hgrows.issued, hgrows.fresh, fun call hcall => ?_⟩
    refine (hgrows.given call hcall).resolve_left fun hc => ?_
    exact Option.some_ne_none _ (hc.symm.trans ((ready?_eq_none_iff h).mpr hvacant))
  trying := by
    intro id hplace hlock hvacant
    have hready := (ready?_eq_none_iff h).mpr hvacant
    refine ⟨fun t hstep => ?_, s.locks id, Step.dials s id hplace hlock hready, fun n hnew => ?_⟩
    · cases hstep with
      | finds _ n _ _ hsome => exact Option.some_ne_none n (hsome.symm.trans hready)
    · refine ⟨_, Step.connects (s.locks id) id n (enters_self s id .connecting) hnew,
        enters_self (s.locks id) id (.given n), ?_, rfl⟩
      exact s.client.ready?_connect n fun hc => hnew (h.opened n hc)
  refusing := by
    intro id kind text t hstep
    cases hstep with
    | refused _ _ _ hplace =>
        have hready := h.vacant (by rw [(h.locked id).mp hplace]; exact Option.some_ne_none id)
        exact ⟨rfl, rfl, rfl, (ready?_eq_none_iff h).mp hready, rfl,
          s.client.acquire_of_failed kind text hready⟩
  idling := by
    intro hslot
    refine ⟨by rw [close, hslot], fun t hstep => ?_⟩
    cases hstep with
    | closesNone _ _ => rfl
    | closes n _ hsome => exact absurd (hsome.symm.trans hslot) (Option.some_ne_none n)
  settling := by
    refine ⟨fun n body t hstep => ?_, h.mailed, h.single⟩
    have hinv := inv_step s t _ h hstep
    cases hstep with
    | frame _ k _ rest hk hread hfound =>
        refine ⟨_, rfl, fun call hcall => hinv.mailed n call ?_⟩
        exact List.mem_append_right _ (List.mem_map_of_mem hcall)

/-- The life cycle of connections, in every world that callers, whoever closes the client and its
    readers lead to by their turns, in whatever order these come. The operations of a client are
    among what they do: any operations on a new client lead to such a world, and any that follow
    lead on from there, if no two of them make the same call and no socket is opened twice. What an
    operation does is done by turns of its own (`Operation.Turns`): closing takes the connection out
    of the slot, marks it and fails everybody on it; the end of a stream, and what is no frame, is a
    turn of the reader that marks the connection, and everybody who still waits on it is failed. -/
theorem connections_succeed (target : Target) (limit : Nat) :
    (∀ s, Reachable target limit s → LifeCycle s)
      ∧ (∀ os rest : List Operation, ((os ++ rest).filterMap Operation.name?).Nodup →
        (((new target limit).performAll (os ++ rest)).2.filterMap Effect.opened?).Nodup →
        ∃ s t, Reachable target limit s ∧ Reaches s t ∧ Did target limit os s
          ∧ Did target limit (os ++ rest) t)
      ∧ ∀ (os : List Operation) (o : Operation), ((os ++ [o]).filterMap Operation.name?).Nodup →
        (((new target limit).performAll (os ++ [o])).2.filterMap Effect.opened?).Nodup →
        ∃ s es t, Reachable target limit s ∧ Run s es t ∧ o.Turns s es ∧ Did target limit os s
          ∧ Did target limit (os ++ [o]) t :=
  ⟨fun s h => lifeCycle_of_inv (inv_of_reachable target limit s h),
    performAll_reaches target limit, perform_turns target limit⟩

/-- A call is refused, and the next one connects and waits. -/
def untilWaiting : List Operation :=
  [.send ⟨.failed .connectionRefused "refused", none⟩ "a" "p" .null,
    .send ⟨.connected 0, none⟩ "b" "p" .null]

/-- A write fails under the waiting call, the next call connects anew, and then the reply comes in
    over the old connection. -/
def untilAnswered : List Operation :=
  [.emit ⟨.connected 2, some (.brokenPipe, "broken pipe")⟩ "c" "p" .null,
    .emit ⟨.connected 1, none⟩ "d" "p" .null,
    .receive 0 (Frame.frame (Json.object [("id", .string "b"), ("isDisposed", .bool true),
      ("response", .bool true)]).write)]

theorem connections_succeed_two : ((untilWaiting ++ untilAnswered).filterMap Operation.name?).Nodup
    ∧ (((new .notification 64).performAll (untilWaiting ++ untilAnswered)).2.filterMap
      Effect.opened?).Nodup
    ∧ (∃ s t, Reachable .notification 64 s ∧ Reaches s t ∧ LifeCycle s ∧ LifeCycle t
      ∧ s.client.ready? = some 0 ∧ t.client.ready? = some 1 ∧ t.opened = [0, 1]
      ∧ (told "a" t.results).map CallResult.label = ["transport"]
      ∧ (told "b" t.results).map CallResult.label = ["ok"])
    ∧ ∃ s later t, Reachable .notification 64 s ∧ Run s (.closes :: .marks 0 :: later) t
      ∧ .fails 0 "b" ∈ later
      ∧ (told "b" t.results).map CallResult.label = ["connection_closed"] := by
  rcases connections_succeed .notification 64 with ⟨hlife, hoperations, hturns⟩
  have hnames : ((untilWaiting ++ untilAnswered).filterMap Operation.name?).Nodup := by decide
  have hsockets : (((new .notification 64).performAll (untilWaiting ++ untilAnswered)).2.filterMap
      Effect.opened?).Nodup := by decide +kernel
  rcases hoperations untilWaiting untilAnswered hnames hsockets with ⟨s, t, hs, hst, hfirst, hboth⟩
  refine ⟨hnames, hsockets, ⟨s, t, hs, hst, hlife s hs, hlife t (hs.trans hst), ?_, ?_, ?_, ?_, ?_⟩,
    ?_⟩
  · rw [hfirst.client]
    decide +kernel
  · rw [hboth.client]
    decide +kernel
  · rw [hboth.opened]
    decide +kernel
  · rw [hboth.results]
    decide +kernel
  · rw [hboth.results]
    decide +kernel
  · -- The client is closed instead, with the call still waiting.
    rcases hturns untilWaiting .close (by decide) (by decide +kernel) with
      ⟨s, es, t, hs, hrun, hcloses, hbefore, hafter⟩
    have hslot : s.client.slot = some 0 := by
      rw [hbefore.client]
      decide +kernel
    have hids : (s.client.connection? 0).map Connection.ids = some ["b"] := by
      rw [hbefore.client]
      decide +kernel
    rcases Option.map_eq_some_iff.mp hids with ⟨k, hk, hwaiting⟩
    rcases hcloses 0 k hslot hk with ⟨later, rfl, hsweeps⟩
    refine ⟨s, later, t, hs, hrun, hsweeps.fails "b" ?_, ?_⟩
    · rw [hwaiting]
      exact List.mem_singleton_self "b"
    · rw [hafter.results]
      decide +kernel

end Client

end Gateway
