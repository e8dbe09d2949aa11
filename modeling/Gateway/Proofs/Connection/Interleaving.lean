import Mathlib.Logic.Relation
import Gateway.Proofs.Connection.Correlation

/-!
# No Caller Is Stranded

Callers, the reader and whoever closes a connection take turns on it at any grain they like, and a
call must not be left waiting on a connection that nobody serves any more. What prevents it is the
order of two pairs of steps. A caller puts its waiter in *first* and looks whether the connection
is marked as closed *then*; whoever ends the connection sets the mark *first* and lists those that
wait *then*. So a caller that saw no mark had its waiter in before the list was made, and one that
came too late sees the mark. Either pair turned round would lose a call.

The module states the turns as a relation on worlds. A world holds the connection, how far each
call and each of the two sweepers has come, what was sent to the callers and what their calls
returned with. Any number of calls may be under way, one for each id, and a step of any party may
follow a step of any other. What changes the connection in a step is one of its operations, in the
grain in which they are written.

The invariant is again about one call at a time. `Fits` says what the phase of a call has to do
with its waiter, with what was sent to it and with what it returned: as long as it is under way,
either its waiter is in and nothing was sent, or its waiter is gone and one result was sent.
Beside that, a sweep that has made its list still has every admitted call on the list whose waiter
is in (`Inv.listed`), and with the list worked off there is none.

A write that fails sets the mark too, but makes no list. The calls that wait are then failed only
when the reader ends, which is why the result speaks of a sweep that was finished. A reader that
breaks down sets no mark and makes no list, and is gone (`Stage.gone`).

## Main definitions

* `Phase`, `Sweeper`, `Stage`: How far a call, and a sweep, has come.
* `World`, `Step`, `Reachable`: The parties on a connection, and their turns.
* `Fits`, `Inv`: What holds of one call, and in every reachable world.

## Theorems

* `Fits.settle`: Settling a call keeps it fitting.
* `inv_step`, `inv_of_reachable`: The invariant is kept by each step and so by every run.
* `no_stranded_caller`: After a finished sweep every admitted call has its result.
* `sweep_reaches`: A sweep that nobody interrupts is `Connection.sweep`.
* `receive_reaches`: Octets that come in are turns of the reader.
-/

namespace Gateway

namespace Connection

/-- How far a call has come. -/
inductive Phase where
  /-- It has not begun. -/
  | idle
  /-- Its waiter is in, and it has not looked for the mark. -/
  | entered
  /-- It saw the mark and is about to return. -/
  | repelled
  /-- It saw no mark and is about to write its packet. -/
  | admitted
  /-- Its packet could not be written and it is about to return. -/
  | failing (error : CallError)
  /-- Its packet is written, and it waits for its result. -/
  | waiting
  /-- It has returned, having seen the mark. -/
  | dismissed
  /-- It has returned, having seen no mark. -/
  | returned
  /-- Its caller gave up. -/
  | cancelled

/-- A call saw no mark and is still under way. -/
def Phase.isAdmitted : Phase → Bool
  | admitted | failing _ | waiting => true
  | _ => false

/-- Who may end a connection. -/
inductive Sweeper where
  /-- The reader, at the end of the stream. -/
  | reader
  /-- Whoever closes the connection. -/
  | closer
  deriving DecidableEq

/-- How a sweeper marks a connection; the reader also ceases to read. -/
def Sweeper.mark : Sweeper → Connection → Connection
  | reader, c => { c.mark with isRead := false }
  | closer, c => c.mark

/-- How far a sweeper has come. -/
inductive Stage where
  /-- It has not begun; the reader reads. -/
  | before
  /-- It has set the mark. -/
  | marked
  /-- It has listed the calls that wait and has yet to fail the rest of the list. -/
  | sweeping (rest : List String)
  /-- It broke down: it neither reads nor sweeps any more. -/
  | gone

/-- Whether a sweeper has set the mark. -/
def Stage.isMarked : Stage → Bool
  | marked | sweeping _ => true
  | before | gone => false

/-- A connection with the parties that take turns on it. -/
structure World where
  /-- The connection. -/
  connection : Connection
  /-- How far the call under each id has come. -/
  phase : String → Phase
  /-- How far each sweeper has come. -/
  stage : Sweeper → Stage
  /-- What was sent to the callers. -/
  mail : List Settled
  /-- What calls returned with. -/
  results : List Settled

namespace World

/-- Nothing has happened on a connection that was just made. -/
def start : World :=
  ⟨fresh, fun _ => .idle, fun _ => .before, [], []⟩

/-- The call under an id goes on to a phase. -/
def enters (s : World) (id : String) (p : Phase) : World :=
  { s with phase := fun other => if other = id then p else s.phase other }

/-- The call under an id is over: its waiter is taken away, whatever else became of it. -/
def leaves (s : World) (id : String) (p : Phase) (results : List CallResult) : World :=
  { s.enters id p with
    connection := s.connection.forget id
    results := s.results ++ results.map fun r => ⟨id, r⟩ }

/-- A sweeper goes on to a stage. -/
def moves (s : World) (w : Sweeper) (stage : Stage) : World :=
  { s with stage := fun other => if other = w then stage else s.stage other }

/-- Something is done to the connection that settles calls. -/
def settles (s : World) (did : Connection × List Settled) : World :=
  { s with connection := did.1, mail := s.mail ++ did.2 }

end World

/-- The turns. Each is atomic, and each may come whenever its party is at it. -/
inductive Step (target : Target) : World → World → Prop
  /-- A call puts its waiter in. -/
  | enter (s : World) (id : String) (h : s.phase id = .idle) :
      Step target s { s.enters id .entered with connection := s.connection.expect id }
  /-- A call looks for the mark. -/
  | look (s : World) (id : String) (h : s.phase id = .entered) :
      Step target s (s.enters id (if s.connection.isOpen then .admitted else .repelled))
  /-- A call that saw the mark returns. -/
  | retreat (s : World) (id : String) (h : s.phase id = .repelled) :
      Step target s (s.leaves id .dismissed [.error (.connectionClosed target)])
  /-- A call writes its packet. -/
  | write (s : World) (id : String) (h : s.phase id = .admitted) :
      Step target s (s.enters id .waiting)
  /-- The packet of a call is no frame. -/
  | refuse (s : World) (id : String) (e : FrameError) (h : s.phase id = .admitted) :
      Step target s (s.enters id (.failing (.codec target e)))
  /-- Writing the packet of a call fails, which marks the connection. -/
  | breakOff (s : World) (id : String) (kind : IoKind) (text : String)
      (h : s.phase id = .admitted) :
      Step target s
        { s.enters id (.failing (.transport target kind text)) with
          connection := s.connection.mark }
  /-- Writing the packet of an event fails, which marks the connection. -/
  | drop (s : World) : Step target s { s with connection := s.connection.mark }
  /-- A call whose packet could not be written returns. -/
  | giveUp (s : World) (id : String) (e : CallError) (h : s.phase id = .failing e) :
      Step target s (s.leaves id .returned [.error e])
  /-- A call returns with the result that was sent to it. -/
  | take (s : World) (id : String) (r : CallResult) (h : s.phase id = .waiting)
      (hmail : r ∈ told id s.mail) : Step target s (s.leaves id .returned [r])
  /-- A caller gives up before its call is about to return. -/
  | cancel (s : World) (id : String)
      (h : s.phase id = .entered ∨ s.phase id = .admitted ∨ s.phase id = .waiting) :
      Step target s (s.leaves id .cancelled [])
  /-- Octets come in, or are taken from those that came in. -/
  | buffer (s : World) (inbox : Bytes) (h : s.stage .reader = .before) :
      Step target s { s with connection := { s.connection with inbox := inbox } }
  /-- The reader takes a frame. -/
  | frame (s : World) (body : Json) (h : s.stage .reader = .before) :
      Step target s (s.settles (s.connection.acceptValue target body))
  /-- The reader breaks down. -/
  | halt (s : World) (h : s.stage .reader = .before) :
      Step target s { s.moves .reader .gone with connection := s.connection.halt }
  /-- Octets are put into the buffer of what is to go out, or the socket takes them from there. -/
  | flush (s : World) (outbox : Bytes) :
      Step target s { s with connection := { s.connection with outbox := outbox } }
  /-- A sweeper sets the mark. -/
  | mark (s : World) (w : Sweeper) (h : s.stage w = .before) :
      Step target s { s.moves w .marked with connection := w.mark s.connection }
  /-- A sweeper lists the calls that wait. -/
  | list (s : World) (w : Sweeper) (h : s.stage w = .marked) :
      Step target s (s.moves w (.sweeping s.connection.ids))
  /-- A sweeper fails the next call on its list. -/
  | fail (s : World) (w : Sweeper) (id : String) (rest : List String)
      (h : s.stage w = .sweeping (id :: rest)) :
      Step target s ((s.settles (s.connection.fail target id)).moves w (.sweeping rest))

/-- A world leads to another in any number of turns. -/
def Reaches (target : Target) : World → World → Prop :=
  Relation.ReflTransGen (Step target)

/-- The worlds that any interleaving of turns leads to. -/
def Reachable (target : Target) : World → Prop :=
  Reaches target .start

/-! ## One Call -/

/-- What the phase of a call has to do with what is held for it, with what was sent to it and with
    what it returned. While it is under way, it waits or was sent one result, and not both. -/
def Fits (target : Target) (held : Option (Option Json)) (mail results : List CallResult) :
    Phase → Prop
  | .idle => held = none ∧ mail = [] ∧ results = []
  | .entered | .repelled | .admitted | .failing _ | .waiting =>
    mail.length = (if held.isSome then 0 else 1) ∧ results = []
  | .dismissed =>
    held = none ∧ mail.length ≤ 1 ∧ results = [.error (.connectionClosed target)]
  | .returned => held = none ∧ mail.length ≤ 1 ∧ results.length = 1
  | .cancelled => held = none ∧ mail.length ≤ 1 ∧ results = []

section OneCall

variable {target : Target} {held : Option (Option Json)} {mail results : List CallResult}
  {p : Phase}

/-- A call is under way while its waiter may be in. -/
def Phase.isUnderWay : Phase → Bool
  | entered | repelled | admitted | failing _ | waiting => true
  | _ => false

theorem fits_of_isUnderWay (hp : p.isUnderWay = true) :
    Fits target held mail results p
      ↔ mail.length = (if held.isSome then 0 else 1) ∧ results = [] := by
  cases p with
  | idle | dismissed | returned | cancelled => exact absurd hp Bool.false_ne_true
  | entered | repelled | admitted | failing e | waiting => exact Iff.rfl

/-- Whatever the phase, a call has been sent one result at most and returned one at most. -/
theorem Fits.length_le (h : Fits target held mail results p) :
    mail.length ≤ 1 ∧ results.length ≤ 1 := by
  cases p with
  | idle =>
      rcases h with ⟨_, hmail, hresults⟩
      rw [hmail, hresults]
      exact ⟨Nat.zero_le 1, Nat.zero_le 1⟩
  | entered | repelled | admitted | failing e | waiting =>
      rcases h with ⟨hmail, hresults⟩
      rw [hmail, hresults]
      refine ⟨?_, Nat.zero_le 1⟩
      split
      · exact Nat.zero_le 1
      · exact Nat.le_refl 1
  | dismissed =>
      rcases h with ⟨_, hmail, hresults⟩
      rw [hresults]
      exact ⟨hmail, Nat.le_refl 1⟩
  | returned => exact ⟨h.2.1, Nat.le_of_eq h.2.2⟩
  | cancelled =>
      rcases h with ⟨_, hmail, hresults⟩
      rw [hresults]
      exact ⟨hmail, Nat.zero_le 1⟩

/-- What an operation on the connection may do to one call: nothing that matters, or take its
    waiter away and send it one result. -/
def Settles (before after : Option (Option Json)) (sent : List CallResult) : Prop :=
  (after.isSome = before.isSome ∧ sent = [])
    ∨ (before.isSome = true ∧ after = none ∧ sent.length = 1)

theorem Fits.settle {before after : Option (Option Json)} {sent : List CallResult}
    (h : Fits target before mail results p) (hsettles : Settles before after sent) :
    Fits target after (mail ++ sent) results p := by
  rcases hsettles with ⟨hsame, rfl⟩ | ⟨hbefore, rfl, hsent⟩
  · -- Nothing was sent, and whether a waiter is in has not changed.
    have hnone : before = none → after = none := fun hc => by
      rw [hc, Option.isSome_none] at hsame
      exact Option.not_isSome_iff_eq_none.mp (Bool.eq_false_iff.mp hsame)
    rw [List.append_nil]
    cases p with
    | idle | dismissed | returned | cancelled => exact ⟨hnone h.1, h.2⟩
    | entered | repelled | admitted | failing e | waiting => exact ⟨hsame ▸ h.1, h.2⟩
  · -- A result was sent, so the waiter was in and the call under way.
    have hsome : before ≠ none := fun hc => by
      rw [hc] at hbefore
      exact Bool.false_ne_true hbefore
    cases p with
    | idle | dismissed | returned | cancelled => exact absurd h.1 hsome
    | entered | repelled | admitted | failing e | waiting =>
        refine ⟨?_, h.2⟩
        have hmail : mail.length = 0 := by rw [h.1, if_pos hbefore]
        rw [List.length_append, hmail, hsent]
        rfl

end OneCall

theorem settles_react (target : Target) (id : String) (held : Option (Option Json)) (body : Json) :
    Settles held (react target id held (.frame body)).1 (react target id held (.frame body)).2 := by
  simp only [react]
  cases (Event.frame body).reply? id with
  | none => exact Or.inl ⟨rfl, rfl⟩
  | some reply =>
      cases held with
      | none => exact Or.inl ⟨rfl, rfl⟩
      | some last =>
          cases hfinal : reply.isFinal with
          | false =>
              simp only [hfinal, Bool.false_eq_true, if_false]
              exact Or.inl ⟨rfl, rfl⟩
          | true =>
              simp only [hfinal, if_true]
              exact Or.inr ⟨rfl, rfl, rfl⟩

theorem settles_acceptValue (target : Target) (c : Connection) (body : Json) (id : String) :
    Settles (c.held id) ((c.acceptValue target body).1.held id)
      (told id (c.acceptValue target body).2) := by
  rcases acceptValue_react target c body id with ⟨hheld, htold⟩
  rw [hheld, htold]
  exact settles_react target id (c.held id) body

theorem settles_fail (target : Target) (c : Connection) (failed id : String) :
    Settles (c.held id) ((c.fail target failed).1.held id) (told id (c.fail target failed).2) := by
  by_cases hid : failed = id
  · rw [hid, held_fail_self, told_fail_self]
    cases h : c.held id with
    | none => exact Or.inl ⟨rfl, rfl⟩
    | some last => exact Or.inr ⟨rfl, rfl, rfl⟩
  · rw [held_fail_ne target c failed id hid, told_fail_ne target c failed id hid]
    exact Or.inl ⟨rfl, rfl⟩

/-! ## All Calls -/

/-- A result is what a call may be sent: that the connection was closed, or what a final reply to
    it says. -/
def Legitimate (target : Target) (call : Settled) : Prop :=
  call.result = .error (.connectionClosed target)
    ∨ ∃ reply last, reply.id = some call.id ∧ reply.isFinal = true
      ∧ call.result = ruling target reply last

/-- What holds in every reachable world. -/
structure Inv (target : Target) (s : World) : Prop where
  /-- Every call fits its phase. -/
  fits : ∀ id, Fits target (s.connection.held id) (told id s.mail) (told id s.results) (s.phase id)
  /-- The mark of a sweeper stays. -/
  closed : ∀ w, (s.stage w).isMarked = true → s.connection.isOpen = false
  /-- A sweep under way has every admitted call on its list whose waiter is in. -/
  listed : ∀ w rest, s.stage w = .sweeping rest → ∀ id, (s.phase id).isAdmitted = true →
    (s.connection.held id).isSome = true → id ∈ rest
  /-- Callers are sent nothing but what they may be sent. -/
  legitimate : ∀ call ∈ s.mail, Legitimate target call

variable {target : Target}

theorem Inv.isOpen_of_sweeping {s : World} (h : Inv target s) {w : Sweeper} {rest : List String}
    (hstage : s.stage w = .sweeping rest) : s.connection.isOpen = false :=
  h.closed w (by rw [hstage]; rfl)

theorem inv_start : Inv target World.start where
  fits := fun _ => ⟨rfl, rfl, rfl⟩
  closed := fun _ h => absurd h Bool.false_ne_true
  listed := fun _ _ h => absurd h (fun hc => Stage.noConfusion hc)
  legitimate := fun _ h => absurd h List.not_mem_nil

/-- A call that goes from one phase under way to another, and nothing else, keeps the invariant,
    provided that it is not admitted while a sweep is under way. -/
theorem inv_enters (s : World) (id : String) (p : Phase) (h : Inv target s)
    (hfrom : (s.phase id).isUnderWay = true) (hto : p.isUnderWay = true)
    (hadmitted : p.isAdmitted = true →
      (s.phase id).isAdmitted = true ∨ s.connection.isOpen = true) :
    Inv target (s.enters id p) where
  fits := by
    intro other
    by_cases hid : other = id
    · rw [hid]
      simp only [World.enters, if_true]
      have hfits := (fits_of_isUnderWay hfrom).mp (h.fits id)
      exact (fits_of_isUnderWay hto).mpr hfits
    · simp only [World.enters, if_neg hid]
      exact h.fits other
  closed := h.closed
  listed := by
    intro w rest hstage other hother hheld
    by_cases hid : other = id
    · rw [hid] at hother hheld ⊢
      simp only [World.enters, if_true] at hother
      rcases hadmitted hother with hbefore | hopen
      · exact h.listed w rest hstage id hbefore hheld
      · -- No sweep is under way on a connection without the mark.
        exact absurd (hopen.symm.trans (h.isOpen_of_sweeping hstage)) Bool.noConfusion
    · simp only [World.enters, if_neg hid] at hother
      exact h.listed w rest hstage other hother hheld
  legitimate := h.legitimate

/-- Setting the mark keeps the invariant. -/
theorem inv_mark (s : World) (h : Inv target s) :
    Inv target { s with connection := s.connection.mark } :=
  ⟨h.fits, fun _ _ => rfl, h.listed, h.legitimate⟩

theorem told_append_map (id other : String) (ss : List Settled) (rs : List CallResult) :
    told other (ss ++ rs.map fun r => ⟨id, r⟩)
      = told other ss ++ if id = other then rs else [] := by
  rw [told_append]
  congr 1
  by_cases h : id = other
  · have hall : (rs.map fun r => (⟨id, r⟩ : Settled)).filter (fun s => s.id == other)
        = rs.map fun r => ⟨id, r⟩ := by
      refine List.filter_eq_self.mpr fun s hs => ?_
      rcases List.mem_map.mp hs with ⟨r, _, rfl⟩
      exact beq_iff_eq.mpr h
    rw [if_pos h, told, hall, List.map_map]
    exact List.map_id rs
  · have hnone : (rs.map fun r => (⟨id, r⟩ : Settled)).filter (fun s => s.id == other) = [] := by
      refine List.filter_eq_nil_iff.mpr fun s hs => ?_
      rcases List.mem_map.mp hs with ⟨r, _, rfl⟩
      exact fun hc => h (beq_iff_eq.mp hc)
    rw [if_neg h, told, hnone, List.map_nil]

/-- A call that is over keeps the invariant if what it returns fits its last phase. -/
theorem inv_leaves (s : World) (id : String) (p : Phase) (results : List CallResult)
    (h : Inv target s) (hto : p.isAdmitted = false)
    (hfits : Fits target none (told id s.mail) (told id s.results ++ results) p) :
    Inv target (s.leaves id p results) where
  fits := by
    intro other
    by_cases hid : other = id
    · rw [hid]
      simp only [World.leaves, World.enters, if_true, held_forget_self, told_append_map]
      exact hfits
    · have hne : ¬ id = other := fun hc => hid hc.symm
      simp only [World.leaves, World.enters, if_neg hid, held_forget_ne _ id other hne,
        told_append_map, if_neg hne, List.append_nil]
      exact h.fits other
  closed := h.closed
  listed := by
    intro w rest hstage other hother hheld
    by_cases hid : other = id
    · rw [hid] at hother
      simp only [World.leaves, World.enters, if_true, hto, Bool.false_eq_true] at hother
    · have hne : ¬ id = other := fun hc => hid hc.symm
      simp only [World.leaves, World.enters, if_neg hid] at hother
      simp only [World.leaves, held_forget_ne _ id other hne] at hheld
      exact h.listed w rest hstage other hother hheld
  legitimate := h.legitimate

/-- A call under way has returned nothing yet, so with one result it has returned one. -/
theorem inv_returned (s : World) (id : String) (r : CallResult) (h : Inv target s)
    (hunderWay : (s.phase id).isUnderWay = true) : Inv target (s.leaves id .returned [r]) := by
  have hfits := (fits_of_isUnderWay hunderWay).mp (h.fits id)
  refine inv_leaves s id .returned _ h rfl ⟨rfl, (h.fits id).length_le.1, ?_⟩
  rw [hfits.2, List.nil_append]
  rfl

/-- What settles calls keeps the invariant if it settles each call at most once, leaves the mark
    alone and sends what may be sent. -/
theorem inv_settles (s : World) (did : Connection × List Settled) (h : Inv target s)
    (hopen : did.1.isOpen = s.connection.isOpen)
    (hsettles : ∀ id, Settles (s.connection.held id) (did.1.held id) (told id did.2))
    (hsent : ∀ call ∈ did.2, Legitimate target call) : Inv target (s.settles did) where
  fits := by
    intro id
    simp only [World.settles, told_append]
    exact (h.fits id).settle (hsettles id)
  closed := fun w hw => hopen.trans (h.closed w hw)
  listed := by
    -- Settling puts no waiter in, so whoever has one had it before.
    intro w rest hstage id hadmitted hheld
    refine h.listed w rest hstage id hadmitted ?_
    rcases hsettles id with ⟨hsame, _⟩ | ⟨hbefore, _, _⟩
    · exact hsame ▸ hheld
    · exact hbefore
  legitimate := by
    intro call hcall
    rcases List.mem_append.mp hcall with hcall | hcall
    · exact h.legitimate call hcall
    · exact hsent call hcall

theorem isOpen_acceptValue (c : Connection) (body : Json) :
    (c.acceptValue target body).1.isOpen = c.isOpen := by
  rw [acceptValue]
  cases Reply.ofValue? body with
  | none => rfl
  | some reply =>
      simp only [accept]
      cases reply.id with
      | none => rfl
      | some id =>
          cases hfinal : reply.isFinal with
          | false => rfl
          | true =>
              simp only [Bool.not_true, Bool.false_eq_true, if_false]
              cases c.waiters.find? fun w => w.id == id <;> rfl

theorem legitimate_of_acceptValue (c : Connection) (body : Json) :
    ∀ call ∈ (c.acceptValue target body).2, Legitimate target call := by
  intro call hcall
  rw [acceptValue] at hcall
  cases hvalue : Reply.ofValue? body with
  | none =>
      rw [hvalue] at hcall
      exact absurd hcall List.not_mem_nil
  | some reply =>
      simp only [hvalue] at hcall
      cases hid : reply.id with
      | none =>
          rw [accept_of_anonymous target c reply hid] at hcall
          exact absurd hcall List.not_mem_nil
      | some id =>
          cases hheld : c.held id with
          | none =>
              rw [accept_of_unheld target c reply id hid hheld] at hcall
              exact absurd hcall List.not_mem_nil
          | some last =>
              cases hfinal : reply.isFinal with
              | false =>
                  rw [accept_of_partial target c reply id hid hfinal] at hcall
                  exact absurd hcall List.not_mem_nil
              | true =>
                  rw [accept_of_final target c reply id last hid hfinal hheld] at hcall
                  rw [List.mem_singleton.mp hcall]
                  exact Or.inr ⟨reply, last, hid, hfinal, conclude_eq_ruling target reply last⟩

theorem isOpen_fail (c : Connection) (id : String) :
    (c.fail target id).1.isOpen = c.isOpen := by
  rw [fail]
  cases c.awaits id <;> rfl

theorem legitimate_of_fail (c : Connection) (id : String) :
    ∀ call ∈ (c.fail target id).2, Legitimate target call := by
  intro call hcall
  cases hheld : c.held id with
  | none =>
      rw [fail_of_unheld target c id hheld] at hcall
      exact absurd hcall List.not_mem_nil
  | some last =>
      rw [fail_of_held target c id last hheld] at hcall
      rw [List.mem_singleton.mp hcall]
      exact Or.inl rfl

/-- A sweeper that goes on keeps the invariant if the mark is set and every admitted call whose
    waiter is in stands on the list it goes on with. -/
theorem inv_moves (s : World) (w : Sweeper) (stage : Stage) (h : Inv target s)
    (hclosed : stage.isMarked = true → s.connection.isOpen = false)
    (hlisted : ∀ rest, stage = .sweeping rest → ∀ id, (s.phase id).isAdmitted = true →
      (s.connection.held id).isSome = true → id ∈ rest) : Inv target (s.moves w stage) where
  fits := h.fits
  closed := by
    intro other hother
    by_cases hw : other = w
    · simp only [World.moves, hw, if_true] at hother
      exact hclosed hother
    · simp only [World.moves, if_neg hw] at hother
      exact h.closed other hother
  listed := by
    intro other rest hstage
    by_cases hw : other = w
    · simp only [World.moves, hw, if_true] at hstage
      exact hlisted rest hstage
    · simp only [World.moves, if_neg hw] at hstage
      exact h.listed other rest hstage
  legitimate := h.legitimate

/-- A call that puts its waiter in is not admitted yet, so no list has to have it. -/
theorem inv_enter (s : World) (id : String) (h : Inv target s) (hphase : s.phase id = .idle) :
    Inv target { s.enters id .entered with connection := s.connection.expect id } where
  fits := by
    intro other
    by_cases hid : other = id
    · have hfits := h.fits id
      rw [hphase] at hfits
      rw [hid]
      simp only [World.enters, if_true, held_expect_self]
      exact ⟨congrArg List.length hfits.2.1, hfits.2.2⟩
    · have hne : ¬ id = other := fun hc => hid hc.symm
      simp only [World.enters, if_neg hid, held_expect_ne _ id other hne]
      exact h.fits other
  closed := h.closed
  listed := by
    intro w rest hstage other hother hheld
    by_cases hid : other = id
    · simp only [World.enters, hid, if_true] at hother
      exact absurd hother Bool.false_ne_true
    · have hne : ¬ id = other := fun hc => hid hc.symm
      simp only [World.enters, if_neg hid] at hother
      simp only [held_expect_ne _ id other hne] at hheld
      exact h.listed w rest hstage other hother hheld
  legitimate := h.legitimate

/-- A sweeper takes the calls off its list one by one, and whoever it takes off does not wait any
    more. -/
theorem inv_fail (s : World) (w : Sweeper) (id : String) (rest : List String) (h : Inv target s)
    (hstage : s.stage w = .sweeping (id :: rest)) :
    Inv target ((s.settles (s.connection.fail target id)).moves w (.sweeping rest)) := by
  refine inv_moves _ w _ (inv_settles s _ h (isOpen_fail s.connection id)
    (settles_fail target s.connection id) (legitimate_of_fail s.connection id)) ?_ ?_
  · intro _
    exact (isOpen_fail s.connection id).trans (h.isOpen_of_sweeping hstage)
  · -- The call that was failed has no waiter any more, and every other one is further on.
    intro others heq other hadmitted hheld
    rw [← Stage.sweeping.inj heq]
    by_cases hid : id = other
    · rw [← hid] at hheld
      simp only [World.settles, held_fail_self, Option.isSome_none, Bool.false_eq_true] at hheld
    · simp only [World.settles, held_fail_ne target _ id other hid] at hheld
      rcases List.mem_cons.mp (h.listed w _ hstage other hadmitted hheld) with hc | hmem
      · exact absurd hc.symm hid
      · exact hmem

theorem inv_mark_by (s : World) (w : Sweeper) (h : Inv target s) :
    Inv target { s.moves w .marked with connection := w.mark s.connection } := by
  have hmarked : Inv target { s with connection := w.mark s.connection } := by
    cases w with
    | reader => exact ⟨h.fits, fun _ _ => rfl, h.listed, h.legitimate⟩
    | closer => exact inv_mark s h
  refine inv_moves { s with connection := w.mark s.connection } w .marked hmarked (fun _ => ?_) ?_
  · cases w <;> rfl
  · intro rest heq
    exact Stage.noConfusion heq

theorem inv_step (s t : World) (h : Inv target s) (hstep : Step target s t) : Inv target t := by
  cases hstep with
  | enter id hphase => exact inv_enter s id h hphase
  | look id hphase =>
      -- The only turn that admits a call, and it does so where there is no mark.
      cases hopen : s.connection.isOpen with
      | true =>
          rw [if_pos rfl]
          exact inv_enters s id .admitted h (by rw [hphase]; rfl) rfl fun _ => Or.inr hopen
      | false =>
          rw [if_neg Bool.false_ne_true]
          exact inv_enters s id .repelled h (by rw [hphase]; rfl) rfl
            fun hc => absurd hc Bool.false_ne_true
  | retreat id hphase =>
      have hfits := h.fits id
      rw [hphase] at hfits
      refine inv_leaves s id .dismissed _ h rfl ⟨rfl, hfits.length_le.1, ?_⟩
      rw [hfits.2, List.nil_append]
  | write id hphase =>
      exact inv_enters s id .waiting h (by rw [hphase]; rfl) rfl
        fun _ => Or.inl (by rw [hphase]; rfl)
  | refuse id e hphase =>
      exact inv_enters s id _ h (by rw [hphase]; rfl) rfl fun _ => Or.inl (by rw [hphase]; rfl)
  | breakOff id kind text hphase =>
      exact inv_mark _ (inv_enters s id _ h (by rw [hphase]; rfl) rfl
        fun _ => Or.inl (by rw [hphase]; rfl))
  | drop => exact inv_mark s h
  | giveUp id e hphase => exact inv_returned s id _ h (by rw [hphase]; rfl)
  | take id r hphase hmail => exact inv_returned s id r h (by rw [hphase]; rfl)
  | cancel id hphase =>
      have hunderWay : (s.phase id).isUnderWay = true := by
        rcases hphase with hphase | hphase | hphase <;> rw [hphase] <;> rfl
      have hfits := (fits_of_isUnderWay hunderWay).mp (h.fits id)
      refine inv_leaves s id .cancelled _ h rfl ⟨rfl, (h.fits id).length_le.1, ?_⟩
      rw [hfits.2, List.nil_append]
  | buffer inbox hread => exact ⟨h.fits, h.closed, h.listed, h.legitimate⟩
  | frame body hread =>
      exact inv_settles s _ h (isOpen_acceptValue s.connection body)
        (settles_acceptValue target s.connection body)
        (legitimate_of_acceptValue s.connection body)
  | halt hread =>
      have hhalted : Inv target { s with connection := s.connection.halt } :=
        ⟨h.fits, h.closed, h.listed, h.legitimate⟩
      exact inv_moves _ .reader .gone hhalted (fun hc => absurd hc Bool.false_ne_true)
        fun _ heq => Stage.noConfusion heq
  | flush outbox => exact ⟨h.fits, h.closed, h.listed, h.legitimate⟩
  | mark w hstage => exact inv_mark_by s w h
  | list w hstage =>
      -- The list is made of everybody who waits.
      refine inv_moves s w _ h (fun _ => h.closed w (by rw [hstage]; rfl)) ?_
      intro rest heq id _ hheld
      rw [← Stage.sweeping.inj heq]
      exact (mem_ids_iff s.connection id).mpr hheld
  | fail w id rest hstage => exact inv_fail s w id rest h hstage

theorem inv_of_reachable (s : World) (h : Reachable target s) : Inv target s := by
  induction h with
  | refl => exact inv_start
  | tail _ hstep ih => exact inv_step _ _ ih hstep

/-- The only turn of a call that saw the mark is to return, and others cannot keep it from that. -/
theorem step_of_repelled (s t : World) (id : String) (hphase : s.phase id = .repelled)
    (hstep : Step target s t) :
    t.phase id = .repelled
      ∨ t = s.leaves id .dismissed [.error (.connectionClosed target)] := by
  -- A turn of another call leaves the phase alone, and all other turns are barred by the phase.
  have hother : ∀ (other : String) (p : Phase), s.phase other ≠ .repelled →
      (s.enters other p).phase id = .repelled := fun other p hne => by
    have hid : ¬ id = other := fun hc => hne (hc ▸ hphase)
    simp only [World.enters, if_neg hid, hphase]
  cases hstep with
  | enter other h => exact Or.inl (hother other _ (by rw [h]; exact Phase.noConfusion))
  | look other h => exact Or.inl (hother other _ (by rw [h]; exact Phase.noConfusion))
  | retreat other h =>
      by_cases hid : id = other
      · rw [hid]
        exact Or.inr rfl
      · refine Or.inl ?_
        simp only [World.leaves, World.enters, if_neg hid, hphase]
  | write other h => exact Or.inl (hother other _ (by rw [h]; exact Phase.noConfusion))
  | refuse other e h => exact Or.inl (hother other _ (by rw [h]; exact Phase.noConfusion))
  | breakOff other kind text h =>
      exact Or.inl (hother other _ (by rw [h]; exact Phase.noConfusion))
  | drop => exact Or.inl hphase
  | giveUp other e h => exact Or.inl (hother other _ (by rw [h]; exact Phase.noConfusion))
  | take other r h hmail => exact Or.inl (hother other _ (by rw [h]; exact Phase.noConfusion))
  | cancel other h =>
      refine Or.inl (hother other _ ?_)
      rcases h with h | h | h <;> rw [h] <;> exact Phase.noConfusion
  | buffer inbox h => exact Or.inl hphase
  | frame body h => exact Or.inl hphase
  | halt h => exact Or.inl hphase
  | flush outbox => exact Or.inl hphase
  | mark w h => exact Or.inl hphase
  | list w h => exact Or.inl hphase
  | fail w other rest h => exact Or.inl hphase

/-- An admitted call that is not on any list any more was sent its result. -/
theorem exists_told_of_swept (s : World) (w : Sweeper) (id : String) (h : Inv target s)
    (hstage : s.stage w = .sweeping []) (hadmitted : (s.phase id).isAdmitted = true) :
    ∃ r, told id s.mail = [r] ∧ Legitimate target ⟨id, r⟩ := by
  -- With nobody left on the list the waiter is gone, and a waiter goes only against a result.
  have hgone : (s.connection.held id).isSome = false :=
    Bool.eq_false_iff.mpr fun hheld =>
      absurd (h.listed w [] hstage id hadmitted hheld) List.not_mem_nil
  have hunderWay : (s.phase id).isUnderWay = true := by
    cases hphase : s.phase id with
    | admitted | failing e | waiting => rfl
    | _ =>
        rw [hphase] at hadmitted
        exact absurd hadmitted Bool.false_ne_true
  have hlength : (told id s.mail).length = 1 := by
    rw [((fits_of_isUnderWay hunderWay).mp (h.fits id)).1, hgone]
    rfl
  rcases List.length_eq_one_iff.mp hlength with ⟨r, hr⟩
  refine ⟨r, hr, h.legitimate ⟨id, r⟩ (mem_of_mem_told id r s.mail ?_)⟩
  rw [hr]
  exact List.mem_singleton_self r

/-- Whoever ended the connection, once its sweep is finished every call that saw no mark and has
    not returned was sent its result and, if it waits, can return with it. A call that saw the mark
    can only return that the connection was closed, and leaves no waiter. No call is sent, or
    returns, two results. -/
theorem no_stranded_caller (target : Target) (s : World) (h : Reachable target s) :
    (∀ w id, s.stage w = .sweeping [] → (s.phase id).isAdmitted = true →
      ∃ r, told id s.mail = [r] ∧ Legitimate target ⟨id, r⟩
        ∧ (s.phase id = .waiting → Step target s (s.leaves id .returned [r])))
      ∧ (∀ id, s.phase id = .repelled →
        Step target s (s.leaves id .dismissed [.error (.connectionClosed target)])
          ∧ ∀ t, Step target s t → t.phase id = .repelled
            ∨ t = s.leaves id .dismissed [.error (.connectionClosed target)])
      ∧ (∀ id, s.phase id = .dismissed →
        told id s.results = [.error (.connectionClosed target)]
          ∧ s.connection.awaits id = false)
      ∧ ∀ id, (told id s.mail).length ≤ 1 ∧ (told id s.results).length ≤ 1 := by
  have hinv := inv_of_reachable s h
  refine ⟨?_, ?_, ?_, fun id => (hinv.fits id).length_le⟩
  · intro w id hstage hadmitted
    rcases exists_told_of_swept s w id hinv hstage hadmitted with ⟨r, hr, hlegitimate⟩
    refine ⟨r, hr, hlegitimate, fun hwaiting => Step.take s id r hwaiting ?_⟩
    rw [hr]
    exact List.mem_singleton_self r
  · intro id hphase
    exact ⟨Step.retreat s id hphase, fun t hstep => step_of_repelled s t id hphase hstep⟩
  · intro id hphase
    have hfits := hinv.fits id
    rw [hphase] at hfits
    rw [awaits_eq_isSome_held, hfits.1]
    exact ⟨hfits.2.2, rfl⟩

/-- One call is admitted before the reader marks the connection and another comes too late: the
    first is failed by the reader, and the second takes itself away. -/
theorem no_stranded_caller_early_and_late : ∃ s : World, Reachable .aiMl s
    ∧ s.stage .reader = .sweeping [] ∧ (s.phase "early").isAdmitted = true
    ∧ (∃ r, told "early" s.mail = [r] ∧ Legitimate .aiMl ⟨"early", r⟩)
    ∧ s.phase "late" = .dismissed
    ∧ told "late" s.results = [.error (.connectionClosed .aiMl)]
    ∧ s.connection.awaits "late" = false := by
  have h₁ : Reachable .aiMl _ := .tail .refl (.enter _ "early" rfl)
  have h₂ : Reachable .aiMl _ := .tail h₁ (.look _ "early" rfl)
  have h₃ : Reachable .aiMl _ := .tail h₂ (.mark _ .reader rfl)
  have h₄ : Reachable .aiMl _ := .tail h₃ (.enter _ "late" rfl)
  have h₅ : Reachable .aiMl _ := .tail h₄ (.look _ "late" rfl)
  have h₆ : Reachable .aiMl _ := .tail h₅ (.retreat _ "late" rfl)
  have h₇ : Reachable .aiMl _ := .tail h₆ (.list _ .reader rfl)
  have h₈ : Reachable .aiMl _ := .tail h₇ (.fail _ .reader "early" [] rfl)
  rcases no_stranded_caller .aiMl _ h₈ with ⟨hswept, _, hdismissed, _⟩
  rcases hswept .reader "early" rfl rfl with ⟨r, hr, hlegitimate, _⟩
  rcases hdismissed "late" rfl with ⟨hresults, hawaits⟩
  exact ⟨_, h₈, rfl, rfl, ⟨r, hr, hlegitimate⟩, rfl, hresults, hawaits⟩

/-! ## Turns That Nobody Interrupts -/

theorem World.ext_of (s t : World) (hconnection : s.connection = t.connection)
    (hphase : ∀ id, s.phase id = t.phase id) (hstage : ∀ w, s.stage w = t.stage w)
    (hmail : s.mail = t.mail) (hresults : s.results = t.results) : s = t := by
  rcases s with ⟨c, phase, stage, mail, results⟩
  rcases t with ⟨d, phase', stage', mail', results'⟩
  rw [World.mk.injEq]
  exact ⟨hconnection, funext hphase, funext hstage, hmail, hresults⟩

theorem moves_self (s : World) (w : Sweeper) (stage : Stage) (h : s.stage w = stage) :
    s.moves w stage = s := by
  refine World.ext_of _ _ rfl (fun _ => rfl) (fun other => ?_) rfl rfl
  by_cases hw : other = w
  · simp only [World.moves, hw, if_true, h]
  · simp only [World.moves, if_neg hw]

theorem enters_phase_self (s : World) (id : String) (p : Phase) : (s.enters id p).phase id = p := by
  simp only [World.enters, if_true]

/-- Working off a list without interruption is failing the calls on it one after another. -/
theorem failAll_reaches (w : Sweeper) (ids : List String) (s : World)
    (h : s.stage w = .sweeping ids) :
    Reaches target s ((s.settles (s.connection.failAll target ids)).moves w (.sweeping [])) := by
  induction ids generalizing s with
  | nil =>
      have hsame : s.settles (s.connection.failAll target []) = s :=
        World.ext_of _ _ rfl (fun _ => rfl) (fun _ => rfl) (List.append_nil s.mail) rfl
      rw [hsame, moves_self s w _ h]
      exact Relation.ReflTransGen.refl
  | cons id rest ih =>
      have hstep := @Step.fail target s w id rest h
      refine Relation.ReflTransGen.head hstep ?_
      have hrest := ih ((s.settles (s.connection.fail target id)).moves w (.sweeping rest))
        (if_pos rfl)
      have hsame : (s.settles (s.connection.failAll target (id :: rest))).moves w (.sweeping [])
          = ((((s.settles (s.connection.fail target id)).moves w (.sweeping rest)).settles
            ((s.connection.fail target id).1.failAll target rest)).moves w (.sweeping [])) := by
        refine World.ext_of _ _ rfl (fun _ => rfl) (fun other => ?_) ?_ rfl
        · by_cases hw : other = w
          · simp only [World.moves, hw, if_true]
          · simp only [World.moves, World.settles, if_neg hw]
        · exact (List.append_assoc s.mail _ _).symm
      rw [hsame]
      exact hrest

/-- A sweep without interruption, from the mark to the end of the list, is `Connection.sweep` of the
    marked connection. With the reader as the sweeper, this is `Connection.finish`. -/
theorem sweep_reaches (w : Sweeper) (s : World) (h : s.stage w = .before) :
    Reaches target s
      ((s.settles ((w.mark s.connection).sweep target)).moves w (.sweeping [])) := by
  -- Three turns one after another: the mark, the list, and working it off.
  have hmark := @Step.mark target s w h
  have hlist := @Step.list target
    { s.moves w .marked with connection := w.mark s.connection } w (if_pos rfl)
  have hrest := @failAll_reaches target w (w.mark s.connection).ids
    ({ s.moves w .marked with connection := w.mark s.connection }.moves w
      (.sweeping (w.mark s.connection).ids)) (if_pos rfl)
  refine Relation.ReflTransGen.head hmark (Relation.ReflTransGen.head hlist ?_)
  have hsame : (s.settles ((w.mark s.connection).sweep target)).moves w (.sweeping [])
      = ((({ s.moves w .marked with connection := w.mark s.connection }.moves w
        (.sweeping (w.mark s.connection).ids)).settles
          ((w.mark s.connection).failAll target (w.mark s.connection).ids)).moves w
            (.sweeping [])) := by
    refine World.ext_of _ _ rfl (fun _ => rfl) (fun other => ?_) rfl rfl
    by_cases hw : other = w
    · simp only [World.moves, hw, if_true]
    · simp only [World.moves, World.settles, if_neg hw]
  rw [hsame]
  exact hrest

theorem acceptAll_reaches (bodies : List Json) (s : World) (h : s.stage .reader = .before) :
    Reaches target s (s.settles (s.connection.acceptAll target bodies)) := by
  induction bodies generalizing s with
  | nil =>
      have hsame : s.settles (s.connection.acceptAll target []) = s :=
        World.ext_of _ _ rfl (fun _ => rfl) (fun _ => rfl) (List.append_nil s.mail) rfl
      rw [hsame]
      exact Relation.ReflTransGen.refl
  | cons body rest ih =>
      have hrest := ih (s.settles (s.connection.acceptValue target body)) h
      have hsame : s.settles (s.connection.acceptAll target (body :: rest))
          = (s.settles (s.connection.acceptValue target body)).settles
            ((s.connection.acceptValue target body).1.acceptAll target rest) :=
        World.ext_of _ _ rfl (fun _ => rfl) (fun _ => rfl) (List.append_assoc s.mail _ _).symm rfl
      rw [hsame]
      exact Relation.ReflTransGen.head (Step.frame s body h) hrest

/-- How far the reader has come when decoding has ended. -/
def Stage.afterwards : Option FrameError → Stage
  | none => .before
  | some e => if e.isBreakdown then .gone else .sweeping []

/-- What octets that come in do to a connection, they do by turns of the reader: it takes the frames
    among them and, if something was refused, sweeps, unless it breaks down over it. -/
theorem receive_reaches (limit : Nat) (octets : Bytes) (s : World)
    (h : s.stage .reader = .before) (hread : s.connection.isRead = true) :
    Reaches target s
      ((s.settles (s.connection.receive target limit octets)).moves .reader
        (Stage.afterwards (Frame.feed limit s.connection.inbox octets).error)) := by
  have hguard : (!s.connection.isRead) = false := by
    rw [hread]
    rfl
  rcases hfound : Frame.feed limit s.connection.inbox octets with ⟨frames, error, rest⟩
  have hframes := @acceptAll_reaches target frames
    { s with connection := { s.connection with inbox := rest } } h
  have htaken := Relation.ReflTransGen.head (Step.buffer s rest h) hframes
  cases error with
  | none =>
      simp only [receive, hguard, hfound, Bool.false_eq_true, if_false, Stage.afterwards]
      rw [moves_self _ .reader .before (by exact h)]
      exact htaken
  | some e =>
      simp only [receive, hguard, hfound, Bool.false_eq_true, if_false, Stage.afterwards]
      refine htaken.trans ?_
      cases hbreak : e.isBreakdown with
      | true =>
          rw [stop_of_breakdown target _ hbreak, if_pos rfl, List.append_nil]
          exact Relation.ReflTransGen.single (Step.halt _ h)
      | false =>
          rw [stop_of_answer target _ hbreak, if_neg Bool.false_ne_true]
          have hswept := @sweep_reaches target .reader
            ({ s with connection := { s.connection with inbox := rest } }.settles
              ({ s.connection with inbox := rest }.acceptAll target frames)) h
          have hsame : ∀ did₁ did₂ : List Settled,
              s.mail ++ (did₁ ++ did₂) = s.mail ++ did₁ ++ did₂ :=
            fun did₁ did₂ => (List.append_assoc s.mail did₁ did₂).symm
          simp only [World.settles, World.moves, hsame] at hswept ⊢
          exact hswept

/-- A call that nobody interrupts on an open connection leaves its waiter as `Connection.expect`
    does, and waits. -/
theorem call_reaches (s : World) (id : String) (h : s.phase id = .idle)
    (hopen : s.connection.isOpen = true) :
    Reaches target s { s.enters id .waiting with connection := s.connection.expect id } := by
  have hlook := @Step.look target
    { s.enters id .entered with connection := s.connection.expect id } id
    (enters_phase_self s id .entered)
  have hadmitted : (s.connection.expect id).isOpen = true := hopen
  simp only [hadmitted, if_true] at hlook
  have hwrite := @Step.write target _ id (enters_phase_self
    { s.enters id .entered with connection := s.connection.expect id } id .admitted)
  have hsame : ({ s.enters id .waiting with connection := s.connection.expect id } : World)
      = (World.enters { s.enters id .entered with connection := s.connection.expect id } id
        .admitted).enters id .waiting := by
    refine World.ext_of _ _ rfl (fun other => ?_) (fun _ => rfl) rfl rfl
    by_cases hid : other = id
    · simp only [World.enters, hid, if_true]
    · simp only [World.enters, if_neg hid]
  rw [hsame]
  exact Relation.ReflTransGen.head (Step.enter s id h) (Relation.ReflTransGen.head hlook
    (Relation.ReflTransGen.single hwrite))

end Connection

end Gateway
