import Gateway.Proofs.Client.Absence

/-!
# A Caller That Gives Up

A caller may give up at any moment between the beginning and the end of its call: while it connects,
before or after its packet is written, or when its result is there and it has not taken it yet. In
each case it leaves the same behind. Its waiter is taken away, wherever that was, the lock is free
if it was its own, and that is all: no mark is set, nobody else is moved, and nobody is told
anything. If its packet is just going out, what is left of that stays in the buffer.

The call is over then and stays so. It takes no turn and gets no result, whatever the others do. Its
packet may have been written long before, so a reply may still come. The reader takes it from the
inbox and finds nobody who waits for it, and the world is the same but for the inbox.

## Main definitions

* `Place.isUnderWay`: A call has begun and is not over.
* `World.gaveUp`: The world once the caller of a call has given up.
* `Event.GivesUp`: The turns of giving up.

## Theorems

* `step_cancels_iff`: What it is to give up.
* `ended_of_step`, `ended_of_gaveUp`: A call that was given up is over, and for good.
* `late_reply`: A reply that comes too late changes nothing but the inbox.
-/

namespace Gateway

namespace Client

/-- Whether a call has begun and is not over. -/
def Place.isUnderWay : Place → Bool
  | idle | ended => false
  | connecting | given _ | entered _ | admitted _ | waiting _ => true

/-- The world once the caller of a call has given up. -/
def World.gaveUp (s : World) (id : String) : World :=
  { s.enters id .ended with
    client := s.client.forgetAll id
    lock := if s.lock = some id then none else s.lock }

/-- The caller of a call gives up, be it while its packet goes out. -/
def Event.GivesUp (id : String) : Event → Prop
  | .cancels other | .interrupts other _ => other = id
  | _ => False

variable {s t u v : World} {e : Event} {es : List Event} {id : String} {n : Nat}

/-- To take the waiter away where it is is to take it away everywhere. -/
theorem update_forget_eq_forgetAll (h : Inv s) (hplace : (s.place id).socket? = some n) :
    s.client.update n (·.forget id) = s.client.forgetAll id := by
  have hended := inv_leaves [] h hplace
  have hnone := (s.leaves id n []).client.forgetAll_of_unheld id hended.nodup
    (not_waits_of_place hended (by rw [leaves_self]; rfl))
  rw [client_leaves] at hnone
  exact hnone.symm.trans (s.client.forgetAll_update_self id n (·.forget id)
    (fun k _ => k.forget_forget id) h.nodup)

/-- A caller may give up whenever its call is under way, and it always comes to the same. -/
theorem step_cancels_iff (h : Inv s) :
    Step s (.cancels id) t ↔ (s.place id).isUnderWay = true ∧ t = s.gaveUp id := by
  have hquits : s.place id = .connecting → s.quits id [] = s.gaveUp id := by
    intro hconnecting
    have hsame := s.client.forgetAll_of_unheld id h.nodup
      (not_waits_of_place h (by rw [hconnecting]; rfl))
    have hlock := (h.locked id).mp hconnecting
    simp only [World.quits, World.gaveUp, World.enters, hsame, hlock, if_true, List.map_nil,
      List.append_nil]
  have hleaves : ∀ m, (s.place id).socket? = some m → s.leaves id m [] = s.gaveUp id := by
    intro m hm
    have hforget := update_forget_eq_forgetAll h hm
    have hlock := lock_ne_of_socket? h hm
    simp only [World.leaves, World.gaveUp, World.changes, World.enters, hforget, if_neg hlock,
      List.map_nil, List.append_nil]
  constructor
  · intro hstep
    cases hstep with
    | abandons _ hconnecting => exact ⟨by rw [hconnecting]; rfl, hquits hconnecting⟩
    | cancels _ m hplaced =>
        refine ⟨?_, hleaves m hplaced⟩
        cases hp : s.place id with
        | idle | ended =>
            rw [hp] at hplaced
            exact absurd hplaced (Option.some_ne_none m).symm
        | connecting | given | entered | admitted | waiting => rfl
  · rintro ⟨hunderWay, rfl⟩
    have hplaced : ∀ m, (s.place id).socket? = some m → Step s (.cancels id) (s.gaveUp id) :=
      fun m hm => hleaves m hm ▸ .cancels s id m hm
    cases hp : s.place id with
    | idle | ended =>
        rw [hp] at hunderWay
        exact absurd hunderWay Bool.false_ne_true
    | connecting => exact hquits hp ▸ .abandons s id hp
    | given m | entered m | admitted m | waiting m => exact hplaced m (by rw [hp]; rfl)

/-- Who gives up is told nothing. -/
theorem ended_of_step (h : Inv s) (hgives : e.GivesUp id) (hstep : Step s e t) :
    t.place id = .ended ∧ t.results = s.results := by
  cases e with
  | cancels other =>
      rcases (hgives : other = id)
      rw [((step_cancels_iff h).mp hstep).2]
      exact ⟨enters_self s id .ended, rfl⟩
  | interrupts other p =>
      rcases (hgives : other = id)
      cases hstep with
      | interrupts _ n _ frame _ hframe =>
          rw [interrupts_eq s id n p hframe]
          exact ⟨leaves_self _ id n [], List.append_nil s.results⟩
  | _ => exact hgives.elim

/-- A call that was given up is over for good: it takes no turn, it is told nothing, and nobody
    waits under its id. -/
theorem ended_of_gaveUp (h : Inv s) (hgives : e.GivesUp id) (hstep : Step s e t)
    (hrun : Run t es u) : u.place id = .ended ∧ told id u.results = told id s.results
      ∧ (∀ e ∈ es, e.caller? ≠ some id) ∧ ∀ m, ¬ u.client.Waits id m := by
  rcases ended_of_step h hgives hstep with ⟨hplace, hresults⟩
  rcases ended_of_run hrun hplace with ⟨hended, htold, hcallers⟩
  have hinv := inv_of_reaches (inv_step s t _ h hstep) hrun.reaches
  exact ⟨hended, hresults ▸ htold, hcallers, not_waits_of_place hinv (by rw [hended]; rfl)⟩

/-- A reply to a call that uses no connection any more is taken from the inbox, and nothing else
    comes of it. -/
theorem late_reply (h : Inv s) (hplace : (s.place id).socket? = none) {body : Json} {reply : Reply}
    (hreply : Reply.ofValue? body = some reply) (hid : reply.id = some id)
    (hstep : Step s (.frame n body) t) :
    ∃ rest, t = s.changes n fun k => { k with inbox := rest } := by
  cases hstep with
  | frame _ k _ rest hk hread hfound =>
      have hnone : ({ k with inbox := rest } : Connection).held id = none :=
        Option.not_isSome_iff_eq_none.mp fun hheld => not_waits_of_place h hplace n ⟨k, hk, hheld⟩
      have haccept : ({ k with inbox := rest } : Connection).acceptValue s.client.target body
          = ({ k with inbox := rest }, []) := by
        rw [Connection.acceptValue, hreply]
        exact Connection.accept_of_unheld s.client.target _ reply id hid hnone
      have hclient : (s.client.update n fun _ => { k with inbox := rest })
          = s.client.update n fun k => { k with inbox := rest } := by
        have hsame := s.client.update_self n (fun _ => k)
          (fun k' hk' => Option.some.inj (hk.symm.trans hk')) h.nodup
        rw [← s.client.update_const n (fun k => { k with inbox := rest }) k, hsame]
      refine ⟨rest, ?_⟩
      rw [haccept]
      simp only [World.settles, World.changes, List.map_nil, List.append_nil, hclient]

end Client

end Gateway
