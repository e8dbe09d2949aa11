import Mathlib.Logic.Relation
import Gateway.Proofs.Client.Slots
import Gateway.Proofs.Connection.Interleaving

/-!
# Turns on a Client

Many callers, whoever closes the client, and one reader for each of its connections take turns on
it. None of them sees the whole. A caller looks at the slot once and keeps what it was given, also
when the slot has long another connection in it; a reader knows its own connection only; and a
connection that was taken out of the slot goes on until its last caller has left it.

What the parties do is cut into turns here where they can be interrupted. To look at the slot takes
its lock, and a caller that finds nothing to use keeps the lock while it connects, so nobody else
looks at the slot in the meantime; but readers and writers need no lock, and whatever they do may
come between the beginning and the end of connecting. Closing takes the connection out of the slot
under the lock, and marks it later, without. Where a party sets the mark as the very next thing
after what made it do so (a reader that met the end of its stream, a writer whose write failed), it
is one turn, since nobody can tell when exactly the cause was. Writing a packet is one turn too,
that of the end of it, since whoever writes keeps all others from writing. It may end with the
caller giving up in the middle, and then the packet stays in the buffer of the connection, or what
is left of it once the socket has taken what it took.

A world is a client with its parties. It also keeps the history that the results are about: the
sockets that were opened, which call was given which connection, and over which connection a call
was settled. The invariant says what these have to do with one another. The lock has a part in one
clause only: whoever holds it found nothing to use, and there still is nothing to use.

## Main definitions

* `Waits`: A call waits on a connection.
* `Place`: How far a call has come, and which connection it was given.
* `World`, `Event`, `Step`, `Reaches`: A client with its parties, and their turns.
* `Inv`: What holds in every reachable world.

## Theorems

* `writes_eq`, `writes_cases`, `interrupts_eq`: What comes of writing a packet.
* `inv_changes`, `inv_place`: A change of a connection, and of the place of a call.
* `inv_step`, `inv_of_reachable`: The invariant is kept by each turn and so by every run.
-/

namespace Gateway

namespace Client

/-- A call waits on the connection over a socket. -/
def Waits (c : Client) (id : String) (socket : Nat) : Prop :=
  ∃ k, c.connection? socket = some k ∧ (k.held id).isSome = true

/-- How far a call has come. -/
inductive Place where
  | idle
  -- It found nothing to use and connects, with the lock of the slot.
  | connecting
  | given (socket : Nat)
  -- Its waiter is in, and it has not looked for the mark.
  | entered (socket : Nat)
  -- It saw no mark and is about to write its packet.
  | admitted (socket : Nat)
  | waiting (socket : Nat)
  -- It has returned, or its caller gave up.
  | ended

/-- The connection that a call uses. -/
def Place.socket? : Place → Option Nat
  | given n | entered n | admitted n | waiting n => some n
  | idle | connecting | ended => none

/-- A client with the parties that take turns on it. -/
structure World where
  client : Client
  -- For a request the name is its correlation id.
  place : String → Place
  -- The call that has the lock of the slot while it connects.
  lock : Option String
  -- Connections that were taken out of the slot to be closed and are not marked yet.
  leaving : List Nat
  -- Connections whose waiters are being failed.
  swept : List Nat
  -- The history: nothing that is done depends on it.
  opened : List Nat
  issued : List (String × Nat)
  mail : List (Nat × Settled)
  results : List Settled

namespace World

/-- Nothing has happened to a client. -/
def start (c : Client) : World :=
  ⟨c, fun _ => .idle, none, [], [], [], [], [], []⟩

def enters (s : World) (id : String) (p : Place) : World :=
  { s with place := fun other => if other = id then p else s.place other }

/-- A call that found nothing to use takes the lock, to connect. -/
def locks (s : World) (id : String) : World :=
  { s.enters id .connecting with lock := some id }

/-- A call is given a connection. -/
def gives (s : World) (id : String) (socket : Nat) : World :=
  { s.enters id (.given socket) with issued := s.issued ++ [(id, socket)] }

/-- A call puts the connection that it made into the slot and lets the lock go. -/
def installs (s : World) (id : String) (socket : Nat) : World :=
  { s.gives id socket with
    client := s.client.connect socket
    lock := none
    opened := s.opened ++ [socket] }

/-- A call that connects is over, and lets the lock go. -/
def quits (s : World) (id : String) (results : List CallResult) : World :=
  { s.enters id .ended with
    lock := none
    results := s.results ++ results.map fun r => ⟨id, r⟩ }

def changes (s : World) (socket : Nat) (f : Connection → Connection) : World :=
  { s with client := s.client.update socket f }

/-- A call that was given a connection is over: its waiter is taken away, whatever else became of
    it. -/
def leaves (s : World) (id : String) (socket : Nat) (results : List CallResult) : World :=
  { (s.changes socket (·.forget id)).enters id .ended with
    results := s.results ++ results.map fun r => ⟨id, r⟩ }

/-- What was done to a connection settles calls. -/
def settles (s : World) (socket : Nat) (did : Connection × List Settled) : World :=
  { s.changes socket fun _ => did.1 with
    mail := s.mail ++ did.2.map fun call => (socket, call) }

/-- A reader stops reading, marks its connection and begins to fail those who wait on it. -/
def shuts (s : World) (socket : Nat) (k : Connection) : World :=
  { s.changes socket fun _ => { k.mark with isRead := false } with swept := socket :: s.swept }

/-- A call writes its packet. A request then waits; an event, like a packet that could not be
    written, is over. -/
def writes (s : World) (id : String) (socket : Nat) (network : Network) (p : Request) : World :=
  match s.client.write network socket p with
  | (c, _, .error e) => { s with client := c }.leaves id socket [.error e]
  | (c, _, .ok ()) =>
    match p.id with
    | some _ => { s with client := c }.enters id (.waiting socket)
    | none => { s with client := c }.leaves id socket [.ok .null]

/-- A call puts its packet into the buffer, and its caller gives up while it goes out. -/
def interrupts (s : World) (id : String) (socket : Nat) (p : Request) : World :=
  { s with client := (s.client.put socket p).1 }.leaves id socket []

end World

/-- Whose turn it is, and what comes of it. -/
inductive Event where
  -- A call gets a connection: it finds one, or it finds none and connects.
  | finds (id : String)
  | dials (id : String)
  | connects (id : String) (socket : Nat)
  | refused (id : String) (kind : IoKind) (text : String)
  -- A request puts its waiter in and then looks for the mark. Calls that wait for no reply do
  -- neither.
  | expects (id : String)
  | looks (id : String)
  | writes (id : String) (network : Network) (packet : Request)
  | takes (id : String)
  -- The caller gives up, while its packet goes out or at whatever place the call is.
  | interrupts (id : String) (packet : Request)
  | cancels (id : String)
  -- The network, and the reader of a connection. The last two set the mark.
  | flushes (socket : Nat) (count : Nat)
  | arrives (socket : Nat) (octets : Bytes)
  | frame (socket : Nat) (body : Json)
  | breaks (socket : Nat) (cause : Breakdown)
  | rejects (socket : Nat) (error : FrameError)
  | ends (socket : Nat)
  -- Whoever closes the client takes the connection out of the slot, and marks it later.
  | closes
  | marks (socket : Nat)
  | fails (socket : Nat) (id : String)
  | drops (socket : Nat)

/-- The turns. Each is atomic, and each may come whenever its party is at it. -/
inductive Step : World → Event → World → Prop
  | finds (s : World) (id : String) (n : Nat) (h : s.place id = .idle) (hlock : s.lock = none)
      (hready : s.client.ready? = some n) : Step s (.finds id) (s.gives id n)
  | dials (s : World) (id : String) (h : s.place id = .idle) (hlock : s.lock = none)
      (hready : s.client.ready? = none) : Step s (.dials id) (s.locks id)
  | connects (s : World) (id : String) (n : Nat) (h : s.place id = .connecting)
      (hnew : n ∉ s.opened) : Step s (.connects id n) (s.installs id n)
  | refused (s : World) (id : String) (kind : IoKind) (text : String)
      (h : s.place id = .connecting) :
      Step s (.refused id kind text)
        (s.quits id [.error (.transport s.client.target kind text)])
  | abandons (s : World) (id : String) (h : s.place id = .connecting) :
      Step s (.cancels id) (s.quits id [])
  | expects (s : World) (id : String) (n : Nat) (h : s.place id = .given n) :
      Step s (.expects id) ((s.changes n (·.expect id)).enters id (.entered n))
  | admits (s : World) (id : String) (n : Nat) (h : s.place id = .entered n)
      (hflag : s.client.flag? n = some true) : Step s (.looks id) (s.enters id (.admitted n))
  | repels (s : World) (id : String) (n : Nat) (h : s.place id = .entered n)
      (hflag : s.client.flag? n = some false) :
      Step s (.looks id) (s.leaves id n [.error (.connectionClosed s.client.target)])
  | writes (s : World) (id : String) (n : Nat) (network : Network) (p : Request)
      (h : (s.place id = .admitted n ∧ p.id = some id) ∨ (s.place id = .given n ∧ p.id = none)) :
      Step s (.writes id network p) (s.writes id n network p)
  -- A packet that is no frame is refused before its caller could give up.
  | interrupts (s : World) (id : String) (n : Nat) (p : Request) (frame : Bytes)
      (h : (s.place id = .admitted n ∧ p.id = some id) ∨ (s.place id = .given n ∧ p.id = none))
      (hframe : Frame.encode s.client.limit p.toText [] = .ok frame) :
      Step s (.interrupts id p) (s.interrupts id n p)
  | takes (s : World) (id : String) (n m : Nat) (r : CallResult) (h : s.place id = .waiting n)
      (hmail : (m, ⟨id, r⟩) ∈ s.mail) : Step s (.takes id) (s.leaves id n [r])
  | cancels (s : World) (id : String) (n : Nat) (h : (s.place id).socket? = some n) :
      Step s (.cancels id) (s.leaves id n [])
  | flushes (s : World) (n count : Nat) : Step s (.flushes n count) (s.changes n (·.flush count))
  | arrives (s : World) (n : Nat) (octets : Bytes) :
      Step s (.arrives n octets) (s.changes n fun k => { k with inbox := k.inbox ++ octets })
  | frame (s : World) (n : Nat) (k : Connection) (body : Json) (rest : Bytes)
      (hk : s.client.connection? n = some k) (hread : k.isRead = true)
      (hfound : Frame.decode s.client.limit k.inbox = .frame body rest) :
      Step s (.frame n body)
        (s.settles n ({ k with inbox := rest }.acceptValue s.client.target body))
  -- A reader that breaks down is gone before it could do anything about it.
  | breaks (s : World) (n : Nat) (k : Connection) (cause : Breakdown) (rest : Bytes)
      (hk : s.client.connection? n = some k) (hread : k.isRead = true)
      (hfound : Frame.decode s.client.limit k.inbox = .refused (.broken cause) rest) :
      Step s (.breaks n cause)
        (s.changes n fun _ => ({ k with inbox := rest } : Connection).halt)
  | rejects (s : World) (n : Nat) (k : Connection) (e : FrameError) (rest : Bytes)
      (hk : s.client.connection? n = some k) (hread : k.isRead = true)
      (hfound : Frame.decode s.client.limit k.inbox = .refused e rest)
      (hanswer : e.isBreakdown = false) :
      Step s (.rejects n e) (s.shuts n { k with inbox := rest })
  | ends (s : World) (n : Nat) (k : Connection) (hk : s.client.connection? n = some k)
      (hread : k.isRead = true) : Step s (.ends n) (s.shuts n k)
  | closesNone (s : World) (hlock : s.lock = none) (hslot : s.client.slot = none) :
      Step s .closes s
  | closes (s : World) (n : Nat) (hlock : s.lock = none) (hslot : s.client.slot = some n) :
      Step s .closes
        { s with client := { s.client with slot := none }, leaving := n :: s.leaving }
  | marks (s : World) (n : Nat) (h : n ∈ s.leaving) :
      Step s (.marks n)
        { s.changes n .mark with leaving := s.leaving.erase n, swept := n :: s.swept }
  | fails (s : World) (n : Nat) (k : Connection) (id : String) (h : n ∈ s.swept)
      (hk : s.client.connection? n = some k) :
      Step s (.fails n id) (s.settles n (k.fail s.client.target id))
  | drops (s : World) (n : Nat) (hslot : s.client.slot ≠ some n) (hleaving : n ∉ s.leaving)
      (hplace : ∀ id, (s.place id).socket? ≠ some n) :
      Step s (.drops n) { s with client := s.client.without n }

/-- A world leads to another in any number of turns. -/
def Reaches : World → World → Prop :=
  Relation.ReflTransGen fun s t => ∃ e, Step s e t

/-- The worlds that any interleaving of turns on a new client leads to. -/
def Reachable (target : Target) (limit : Nat) : World → Prop :=
  Reaches (.start (.new target limit))

/-- Turns one after another lead from a world to another. -/
inductive Run : World → List Event → World → Prop
  | nil (s : World) : Run s [] s
  | cons {s t u : World} {e : Event} {es : List Event} (hstep : Step s e t) (hrun : Run t es u) :
      Run s (e :: es) u

/-! ## Writing -/

section Writing

variable (s : World) (id : String) (n : Nat) (p : Request)

theorem writes_eq (network : Network) : s.writes id n network p
    = match Frame.encode s.client.limit p.toText [], network.writeFault with
      | .error e, _ => s.leaves id n [.error (.codec s.client.target e)]
      | .ok frame, some fault => (s.changes n fun k => (k.fill frame).mark).leaves id n
          [.error (.transport s.client.target fault.1 fault.2)]
      | .ok _, none =>
        if p.isEvent then (s.changes n .drain).leaves id n [.ok .null]
        else (s.changes n .drain).enters id (.waiting n) := by
  rcases s.client.write_cases n network p with ⟨e, hencode, hwrite⟩ |
    ⟨frame, kind, text, hencode, hfault, hwrite⟩ | ⟨frame, hencode, _, hfault, hwrite⟩
  · rw [World.writes, hwrite, hencode]
  · rw [World.writes, hwrite, hencode, hfault]
    rfl
  · rw [World.writes, hwrite, hencode, hfault]
    cases hid : p.id with
    | none => exact (if_pos (by rw [Request.isEvent, hid]; rfl)).symm
    | some _ => exact (if_neg (by rw [Request.isEvent, hid]; exact Bool.false_ne_true)).symm

/-- A call that writes is over, unless it is a request and its packet was written. -/
theorem writes_cases (network : Network) :
    (∃ e, Frame.encode s.client.limit p.toText [] = .error e
        ∧ s.writes id n network p = s.leaves id n [.error (.codec s.client.target e)])
      ∨ (∃ frame kind text, Frame.encode s.client.limit p.toText [] = .ok frame
        ∧ network.writeFault = some (kind, text)
        ∧ s.writes id n network p = (s.changes n fun k => (k.fill frame).mark).leaves id n
          [.error (.transport s.client.target kind text)])
      ∨ ∃ frame, Frame.encode s.client.limit p.toText [] = .ok frame ∧ network.writeFault = none
        ∧ s.writes id n network p
          = if p.isEvent then (s.changes n .drain).leaves id n [.ok .null]
            else (s.changes n .drain).enters id (.waiting n) := by
  rw [writes_eq]
  cases Frame.encode s.client.limit p.toText [] with
  | error e => exact Or.inl ⟨e, rfl, rfl⟩
  | ok frame =>
      cases network.writeFault with
      | some fault => exact Or.inr (Or.inl ⟨frame, fault.1, fault.2, rfl, rfl, rfl⟩)
      | none => exact Or.inr (Or.inr ⟨frame, rfl, rfl, rfl⟩)

/-- A call whose caller gives up while it writes is over, and its packet stays in the buffer. -/
theorem interrupts_eq {frame : Bytes}
    (hframe : Frame.encode s.client.limit p.toText [] = .ok frame) :
    s.interrupts id n p = (s.changes n (·.fill frame)).leaves id n [] := by
  rcases s.client.put_cases n p with ⟨e, hencode, _⟩ | ⟨frame', hencode, _, hput⟩
  · rw [hframe] at hencode
    cases hencode
  · rw [World.interrupts, hput, Except.ok.inj (hframe.symm.trans hencode)]
    rfl

end Writing

/-! ## The Invariant -/

/-- What holds in every reachable world. -/
structure Inv (s : World) : Prop where
  -- What is kept was opened, and nothing in use was let go.
  nodup : s.client.sockets.Nodup
  opened : ∀ n ∈ s.client.sockets, n ∈ s.opened
  slot : ∀ n, s.client.slot = some n → n ∈ s.client.sockets
  leaving : ∀ n ∈ s.leaving, n ∈ s.client.sockets
  placed : ∀ id n, (s.place id).socket? = some n → n ∈ s.client.sockets ∧ (id, n) ∈ s.issued
  -- The lock: whoever connects has it, and there is nothing to use meanwhile.
  locked : ∀ id, s.place id = .connecting ↔ s.lock = some id
  vacant : s.lock ≠ none → s.client.ready? = none
  -- No call is given two connections, since it is given one only where it was given none.
  known : ∀ id n, (id, n) ∈ s.issued → n ∈ s.opened
  single : ∀ id m n, (id, m) ∈ s.issued → (id, n) ∈ s.issued → m = n
  unissued : ∀ id, s.place id = .idle ∨ s.place id = .connecting → ∀ n, (id, n) ∉ s.issued
  -- Whoever waits on a connection uses it, and so a call is settled over the one it was given.
  waiting : ∀ n k id, s.client.connection? n = some k → (k.held id).isSome = true →
    (s.place id).socket? = some n
  mailed : ∀ n call, (n, call) ∈ s.mail → (call.id, n) ∈ s.issued

theorem inv_start (target : Target) (limit : Nat) : Inv (.start (.new target limit)) where
  nodup := List.nodup_nil
  opened := fun _ h => h
  slot := fun _ h => absurd h (Option.some_ne_none _).symm
  locked := fun _ => ⟨fun h => Place.noConfusion h, fun h => absurd h (Option.some_ne_none _).symm⟩
  vacant := fun h => absurd rfl h
  placed := fun _ _ h => absurd h (Option.some_ne_none _).symm
  known := fun _ _ h => absurd h List.not_mem_nil
  single := fun _ _ _ h => absurd h List.not_mem_nil
  unissued := fun _ _ _ => List.not_mem_nil
  waiting := fun _ _ _ h => absurd h (Option.some_ne_none _).symm
  mailed := fun _ _ h => absurd h List.not_mem_nil
  leaving := fun _ h => h

section

variable (s : World) (id other : String) (p q : Place)

theorem enters_self : (s.enters id p).place id = p := if_pos rfl

theorem enters_ne (h : other ≠ id) : (s.enters id p).place other = s.place other := if_neg h

theorem enters_enters : (s.enters id p).enters id q = s.enters id q := by
  simp only [World.enters, World.mk.injEq, true_and, and_true]
  funext other
  split <;> rfl

variable (socket : Nat)

theorem client_changes (f : Connection → Connection) :
    (s.changes socket f).client = s.client.update socket f := rfl

theorem client_leaves (results : List CallResult) :
    (s.leaves id socket results).client = s.client.update socket (·.forget id) := rfl

theorem client_settles (did : Connection × List Settled) :
    (s.settles socket did).client = s.client.update socket fun _ => did.1 := rfl

theorem client_shuts (k : Connection) :
    (s.shuts socket k).client = s.client.update socket fun _ => { k.mark with isRead := false } :=
  rfl

theorem leaves_self (results : List CallResult) :
    (s.leaves id socket results).place id = .ended := if_pos rfl

theorem leaves_ne (results : List CallResult) (h : other ≠ id) :
    (s.leaves id socket results).place other = s.place other := if_neg h

end

variable {s t u : World} {e : Event} {es fs : List Event} {id : String} {n : Nat}

/-- A client that gives no connection that another would not give has nothing to use if the other
    has nothing. -/
theorem ready?_eq_none_of (c d : Client) (h : ∀ n, d.ready? = some n → c.ready? = some n)
    (hnone : c.ready? = none) : d.ready? = none := by
  refine Option.eq_none_iff_forall_ne_some.mpr fun n hn => ?_
  rw [h n hn] at hnone
  exact Option.some_ne_none n hnone

theorem ready?_of_changes (f : Connection → Connection)
    (hopen : ∀ k, s.client.connection? n = some k → (f k).isOpen = true → k.isOpen = true)
    (m : Nat) (h : (s.changes n f).client.ready? = some m) : s.client.ready? = some m :=
  ready?_of_flag? s.client m (s.client.update n f) rfl (flag?_of_update s.client n m f hopen) h

/-- A change of a connection keeps the invariant if it opens nothing and if whoever waits afterwards
    uses the connection. -/
theorem inv_changes (f : Connection → Connection) (h : Inv s)
    (hopen : ∀ k, s.client.connection? n = some k → (f k).isOpen = true → k.isOpen = true)
    (hheld : ∀ k id, s.client.connection? n = some k → ((f k).held id).isSome = true →
      (s.place id).socket? = some n) : Inv (s.changes n f) :=
  { h with
    nodup := by
      rw [World.changes, sockets_update]
      exact h.nodup
    opened := by
      rw [World.changes, sockets_update]
      exact h.opened
    slot := by
      rw [World.changes, sockets_update]
      exact h.slot
    vacant := fun hlock =>
      ready?_eq_none_of s.client _ (ready?_of_changes f hopen) (h.vacant hlock)
    placed := by
      rw [World.changes, sockets_update]
      exact h.placed
    waiting := by
      intro m k id hk hid
      rw [World.changes, connection?_update] at hk
      by_cases hm : m = n
      · rw [if_pos hm, hm] at hk
        rcases Option.map_eq_some_iff.mp hk with ⟨k', hk', rfl⟩
        rw [hm]
        exact hheld k' id hk' hid
      · rw [if_neg hm] at hk
        exact h.waiting m k id hk hid
    leaving := by
      rw [World.changes, sockets_update]
      exact h.leaving }

theorem inv_forget (h : Inv s) : Inv (s.changes n (·.forget id)) := by
  -- Taking a waiter away opens nothing and makes nobody wait.
  refine inv_changes _ h (fun _ _ hopen => hopen) fun k other hk hother => ?_
  by_cases hid : id = other
  · rw [hid, Connection.held_forget_self] at hother
    exact absurd hother Bool.false_ne_true
  · rw [Connection.held_forget_ne k id other hid] at hother
    exact h.waiting n k other hk hother

/-- A call goes on, and may take the lock or let it go. What has to be seen to is that call alone:
    that it connects exactly if the lock is its own, that it was given the connection it uses, if
    any, and that it waits there if it waits at all. -/
theorem inv_place (p : Place) (lock : Option String) (h : Inv s)
    (hself : p = .connecting ↔ lock = some id)
    (hothers : ∀ other, other ≠ id → (s.lock = some other ↔ lock = some other))
    (hvacant : lock ≠ none → s.client.ready? = none)
    (hplaced : ∀ m, p.socket? = some m → m ∈ s.client.sockets ∧ (id, m) ∈ s.issued)
    (hunissued : p = .idle ∨ p = .connecting → ∀ m, (id, m) ∉ s.issued)
    (hwaiting : ∀ m, s.client.Waits id m → p.socket? = some m) :
    Inv { s.enters id p with lock := lock } where
  nodup := h.nodup
  opened := h.opened
  slot := h.slot
  locked := by
    intro other
    change (s.enters id p).place other = .connecting ↔ lock = some other
    by_cases hother : other = id
    · rw [hother, enters_self]
      exact hself
    · rw [enters_ne s id other p hother]
      exact (h.locked other).trans (hothers other hother)
  vacant := hvacant
  placed := by
    intro other m hm
    change ((s.enters id p).place other).socket? = some m at hm
    by_cases hother : other = id
    · rw [hother, enters_self] at hm
      rw [hother]
      exact hplaced m hm
    · rw [enters_ne s id other p hother] at hm
      exact h.placed other m hm
  known := h.known
  single := h.single
  unissued := by
    intro other hearly
    change (s.enters id p).place other = .idle ∨ (s.enters id p).place other = .connecting at hearly
    by_cases hother : other = id
    · rw [hother, enters_self] at hearly
      rw [hother]
      exact hunissued hearly
    · rw [enters_ne s id other p hother] at hearly
      exact h.unissued other hearly
  waiting := by
    intro m k other hk hheld
    change ((s.enters id p).place other).socket? = some m
    by_cases hother : other = id
    · rw [hother] at hheld ⊢
      rw [enters_self]
      exact hwaiting m ⟨k, hk, hheld⟩
    · rw [enters_ne s id other p hother]
      exact h.waiting m k other hk hheld
  mailed := h.mailed
  leaving := h.leaving

theorem lock_ne_of_socket? (h : Inv s) (hfrom : (s.place id).socket? = some n) :
    s.lock ≠ some id := by
  intro hc
  rw [(h.locked id).mpr hc] at hfrom
  exact Option.some_ne_none n hfrom.symm

/-- A call that goes on with the connection it has keeps the invariant. -/
theorem inv_enters (p : Place) (h : Inv s) (hfrom : (s.place id).socket? = some n)
    (hto : p.socket? = some n) : Inv (s.enters id p) := by
  have hne : ∀ q : Place, q.socket? = none → p ≠ q := by
    rintro q hq rfl
    exact Option.some_ne_none n (hto.symm.trans hq)
  refine inv_place p s.lock h (iff_of_false (hne _ rfl) (lock_ne_of_socket? h hfrom))
    (fun _ _ => Iff.rfl) h.vacant (fun m hm => ?_) (fun hc => ?_) fun m ⟨k, hk, hheld⟩ => ?_
  · rw [hto, ← hfrom] at hm
    exact h.placed id m hm
  · exact absurd hc (not_or.mpr ⟨hne _ rfl, hne _ rfl⟩)
  · rw [hto, ← hfrom]
    exact h.waiting m k id hk hheld

/-- A call whose waiter is gone may end. -/
theorem inv_ends (h : Inv s) (hfrom : (s.place id).socket? = some n)
    (hgone : ¬ s.client.Waits id n) : Inv (s.enters id .ended) := by
  refine inv_place .ended s.lock h (iff_of_false Place.noConfusion (lock_ne_of_socket? h hfrom))
    (fun _ _ => Iff.rfl) h.vacant (fun m hm => absurd hm (Option.some_ne_none m).symm)
    (fun hc => hc.elim Place.noConfusion Place.noConfusion) fun m ⟨k, hk, hheld⟩ => ?_
  -- It would have waited on the connection that it uses, and there it waits no more.
  have hm := Option.some.inj ((h.waiting m k id hk hheld).symm.trans hfrom)
  exact absurd ⟨k, hm ▸ hk, hheld⟩ hgone

theorem inv_leaves (results : List CallResult) (h : Inv s)
    (hfrom : (s.place id).socket? = some n) : Inv (s.leaves id n results) := by
  -- What the call returns with is history, which the invariant says nothing about.
  have hended : Inv ((s.changes n (·.forget id)).enters id .ended) := by
    refine inv_ends (inv_forget h) hfrom ?_
    rintro ⟨k, hk, hheld⟩
    rw [client_changes, connection?_update, if_pos rfl] at hk
    rcases Option.map_eq_some_iff.mp hk with ⟨k', _, rfl⟩
    rw [Connection.held_forget_self] at hheld
    exact Bool.false_ne_true hheld
  exact { hended with }

/-- Who uses no connection waits nowhere. -/
theorem not_waits_of_place (h : Inv s) (hplace : (s.place id).socket? = none) (m : Nat) :
    ¬ s.client.Waits id m := by
  rintro ⟨k, hk, hheld⟩
  exact Option.some_ne_none m ((h.waiting m k id hk hheld).symm.trans hplace)

/-- A call that does not connect any more has let the lock go. -/
theorem inv_unlocks (p : Place) (h : Inv s) (hplace : s.place id = .connecting)
    (hto : p = .idle ∨ p = .ended) : Inv { s.enters id p with lock := none } := by
  have hlock := (h.locked id).mp hplace
  have hne : p ≠ .connecting ∧ p.socket? = none := by
    rcases hto with rfl | rfl <;> exact ⟨Place.noConfusion, rfl⟩
  refine inv_place p none h (iff_of_false hne.1 (Option.some_ne_none id).symm)
    (fun other hother => ?_) (fun hc => absurd rfl hc)
    (fun m hm => absurd (hm.symm.trans hne.2) (Option.some_ne_none m))
    (fun _ => h.unissued id (Or.inr hplace))
    fun m hwaits => absurd hwaits (not_waits_of_place h (by rw [hplace]; rfl) m)
  -- There is one lock, so nobody else connects.
  rw [hlock]
  exact iff_of_false (fun hc => hother (Option.some.inj hc).symm) (Option.some_ne_none other).symm

/-- A call that finds nothing to use takes the lock, and there still is nothing to use. -/
theorem inv_locks (h : Inv s) (hplace : s.place id = .idle) (hlock : s.lock = none)
    (hready : s.client.ready? = none) : Inv (s.locks id) := by
  refine inv_place .connecting (some id) h (iff_of_true rfl rfl) (fun other hother => ?_)
    (fun _ => hready) (fun m hm => absurd hm (Option.some_ne_none m).symm)
    (fun _ => h.unissued id (Or.inl hplace))
    fun m hwaits => absurd hwaits (not_waits_of_place h (by rw [hplace]; rfl) m)
  rw [hlock]
  exact iff_of_false (Option.some_ne_none other).symm
    fun hc => hother (Option.some.inj hc).symm

/-- A new connection may be put into the slot when the lock is free. What was kept stays, and nobody
    waits on the new one. -/
theorem inv_connect (h : Inv s) (hlock : s.lock = none) (hnew : n ∉ s.opened) :
    Inv { s with client := s.client.connect n, opened := s.opened ++ [n] } := by
  have hsocket : n ∉ s.client.sockets := fun hc => hnew (h.opened n hc)
  have hkept : ∀ m ∈ s.client.sockets, m ∈ (s.client.connect n).sockets := fun m hm => by
    rw [sockets_connect]
    exact List.mem_append_left _ hm
  exact
    { h with
      nodup := by
        rw [sockets_connect]
        exact List.nodup_append.mpr ⟨h.nodup, List.nodup_singleton n, fun m hm m' hm' => by
          rw [List.mem_singleton.mp hm']
          exact fun hc => hsocket (hc ▸ hm)⟩
      opened := by
        intro m hm
        rw [sockets_connect] at hm
        exact List.mem_append.mpr ((List.mem_append.mp hm).imp (h.opened m) fun hm => hm)
      slot := by
        intro m hm
        rw [sockets_connect, ← Option.some.inj hm]
        exact List.mem_append_right _ (List.mem_singleton_self n)
      vacant := fun hc => absurd hlock hc
      placed := fun id m hm => ⟨hkept m (h.placed id m hm).1, (h.placed id m hm).2⟩
      known := fun id m hm => List.mem_append_left _ (h.known id m hm)
      waiting := by
        intro m k id hk hheld
        rw [connection?_connect s.client n m hsocket] at hk
        by_cases hm : m = n
        · rw [if_pos hm] at hk
          rw [← Option.some.inj hk] at hheld
          exact absurd hheld Bool.false_ne_true
        · rw [if_neg hm] at hk
          exact h.waiting m k id hk hheld
      leaving := fun m hm => hkept m (h.leaving m hm) }

/-- A call that is given a connection was given none before. -/
theorem inv_gives (h : Inv s) (hplace : s.place id = .idle) (hsocket : n ∈ s.client.sockets) :
    Inv (s.gives id n) := by
  have hnone := h.unissued id (Or.inl hplace)
  -- The history has one entry more, and it is the only one of this call.
  have hissued : ∀ other m, (other, m) ∈ s.issued ++ [(id, n)] ↔
      (other, m) ∈ s.issued ∨ (other = id ∧ m = n) := fun other m => by
    rw [List.mem_append, List.mem_singleton, Prod.mk.injEq]
  exact
    { h with
      locked := by
        intro other
        by_cases hother : other = id
        · rw [hother]
          refine iff_of_false (by rw [World.gives, enters_self]; exact Place.noConfusion) ?_
          intro hc
          exact Place.noConfusion (hplace.symm.trans ((h.locked id).mpr hc))
        · rw [World.gives, enters_ne s id other _ hother]
          exact h.locked other
      placed := by
        intro other m hm
        rw [World.gives] at hm ⊢
        by_cases hother : other = id
        · rw [hother, enters_self] at hm
          rw [← Option.some.inj hm, hissued]
          exact ⟨hsocket, Or.inr ⟨hother, rfl⟩⟩
        · rw [enters_ne s id other _ hother] at hm
          rw [hissued]
          exact (h.placed other m hm).imp_right Or.inl
      known := by
        intro other m hm
        rcases (hissued other m).mp hm with hm | ⟨_, rfl⟩
        · exact h.known other m hm
        · exact h.opened m hsocket
      single := by
        intro other l m hl hm
        rcases (hissued other l).mp hl with hold | ⟨hid, hn⟩
        · rcases (hissued other m).mp hm with hold' | ⟨hid', _⟩
          · exact h.single other l m hold hold'
          · exact absurd (hid' ▸ hold) (hnone l)
        · rcases (hissued other m).mp hm with hold' | ⟨_, hn'⟩
          · exact absurd (hid ▸ hold') (hnone m)
          · exact hn.trans hn'.symm
      unissued := by
        intro other hearly m
        rw [World.gives] at hearly ⊢
        by_cases hother : other = id
        · rw [hother, enters_self] at hearly
          exact hearly.elim (fun hc => Place.noConfusion hc) fun hc => Place.noConfusion hc
        · rw [enters_ne s id other _ hother] at hearly
          rw [hissued]
          rintro (hm | ⟨hc, _⟩)
          · exact h.unissued other hearly m hm
          · exact hother hc
      waiting := by
        -- The call itself has not begun, so it waits nowhere.
        intro m k other hk hheld
        have hm := h.waiting m k other hk hheld
        rw [World.gives, enters_ne s id other]
        · exact hm
        · rintro rfl
          rw [hplace] at hm
          exact absurd hm (Option.some_ne_none m).symm
      mailed := fun m call hm => (hissued call.id m).mpr (Or.inl (h.mailed m call hm)) }

/-- What settles calls keeps the invariant if it opens nothing and settles only who waits. -/
theorem inv_settles (k : Connection) (did : Connection × List Settled) (h : Inv s)
    (hk : s.client.connection? n = some k) (hopen : did.1.isOpen = k.isOpen)
    (hsettles : ∀ id, Connection.Settles (k.held id) (did.1.held id) (told id did.2)) :
    Inv (s.settles n did) := by
  have hchanged : Inv (s.changes n fun _ => did.1) := by
    refine inv_changes _ h (fun k' hk' hdid => ?_) fun k' id hk' hid => ?_
    · rw [← Option.some.inj (hk.symm.trans hk'), ← hopen]
      exact hdid
    · refine h.waiting n k id hk ?_
      rcases hsettles id with ⟨hsame, _⟩ | ⟨hbefore, _, _⟩
      · exact hsame ▸ hid
      · exact hbefore
  exact
    { hchanged with
      mailed := by
        intro m call hcall
        rcases List.mem_append.mp hcall with hcall | hcall
        · exact h.mailed m call hcall
        · rcases List.mem_map.mp hcall with ⟨call', hdid, hsame⟩
          rw [Prod.mk.injEq] at hsame
          rw [← hsame.1, ← hsame.2]
          -- Whoever is told something waited, and whoever waits was given the connection.
          refine (h.placed call'.id n (h.waiting n k call'.id hk ?_)).2
          rcases hsettles call'.id with ⟨_, hnone⟩ | ⟨hbefore, _, _⟩
          · have htold := mem_told_of_mem call' did.2 hdid
            rw [hnone] at htold
            exact absurd htold List.not_mem_nil
          · exact hbefore }

/-- A reader that stops reading keeps the invariant, whatever it has taken from the inbox. -/
theorem inv_shuts (k : Connection) (inbox : Bytes) (h : Inv s)
    (hk : s.client.connection? n = some k) : Inv (s.shuts n { k with inbox := inbox }) := by
  have hchanged := inv_changes (fun _ => { k.mark with isRead := false, inbox := inbox }) h
    (fun _ _ hopen => absurd hopen Bool.false_ne_true)
    fun _ id _ hid => h.waiting n k id hk hid
  exact { hchanged with }

theorem socket?_of_writer {p : Request}
    (h : (s.place id = .admitted n ∧ p.id = some id) ∨ (s.place id = .given n ∧ p.id = none)) :
    (s.place id).socket? = some n := by
  rcases h with ⟨hplace, _⟩ | ⟨hplace, _⟩ <;> rw [hplace] <;> rfl

/-- What is to go out over a connection has no part in the invariant. -/
theorem inv_outbox (f : Connection → Connection) (h : Inv s)
    (hwaiters : ∀ k, (f k).waiters = k.waiters) (hopen : ∀ k, (f k).isOpen = k.isOpen) :
    Inv (s.changes n f) := by
  refine inv_changes f h (fun k _ hk => (hopen k).symm.trans hk) fun k id hk hid => ?_
  rw [Connection.held, hwaiters] at hid
  exact h.waiting n k id hk hid

theorem inv_writes (network : Network) (p : Request) (h : Inv s)
    (hfrom : (s.place id).socket? = some n) : Inv (s.writes id n network p) := by
  rcases writes_cases s id n p network with ⟨e, _, hwrites⟩ | ⟨_, kind, text, _, _, hwrites⟩ |
    ⟨_, _, _, hwrites⟩
  · rw [hwrites]
    exact inv_leaves _ h hfrom
  · -- The mark takes nothing from whoever waits, and opens nothing.
    rw [hwrites]
    exact inv_leaves _ (inv_changes _ h (fun _ _ hopen => absurd hopen Bool.false_ne_true)
      fun k id hk hid => h.waiting n k id hk hid) hfrom
  · have hdrained := inv_outbox (n := n) .drain h (fun _ => rfl) fun _ => rfl
    rw [hwrites]
    cases p.isEvent with
    | true => exact inv_leaves _ hdrained hfrom
    | false => exact inv_enters _ hdrained hfrom rfl

theorem inv_interrupts (p : Request) {frame : Bytes} (h : Inv s)
    (hfrom : (s.place id).socket? = some n)
    (hframe : Frame.encode s.client.limit p.toText [] = .ok frame) :
    Inv (s.interrupts id n p) := by
  rw [interrupts_eq s id n p hframe]
  exact inv_leaves _ (inv_outbox (·.fill frame) h (fun _ => rfl) fun _ => rfl) hfrom

theorem inv_quits (results : List CallResult) (h : Inv s) (hplace : s.place id = .connecting) :
    Inv (s.quits id results) :=
  { inv_unlocks .ended h hplace (Or.inr rfl) with }

theorem inv_installs (h : Inv s) (hplace : s.place id = .connecting) (hnew : n ∉ s.opened) :
    Inv (s.installs id n) := by
  -- It is as if the call let the lock go, changed the slot and was then given what is in it.
  have hunlocked := inv_unlocks .idle h hplace (Or.inl rfl)
  have hconnected := inv_connect hunlocked rfl hnew
  have hgiven := inv_gives (n := n) hconnected (enters_self s id .idle) (by
    rw [sockets_connect]
    exact List.mem_append_right _ (List.mem_singleton_self n))
  have hsame : s.installs id n
      = World.gives { s.enters id .idle with
          client := s.client.connect n
          lock := none
          opened := s.opened ++ [n] } id n := by
    have hplaces := congrArg World.place (enters_enters s id .idle (.given n))
    simp only [World.installs, World.gives, World.enters] at hplaces ⊢
    rw [hplaces]
  rw [hsame]
  exact hgiven

theorem inv_expects (h : Inv s) (hplace : s.place id = .given n) :
    Inv ((s.changes n (·.expect id)).enters id (.entered n)) := by
  have hfrom : (s.place id).socket? = some n := by
    rw [hplace]
    rfl
  refine inv_enters _ (inv_changes _ h (fun _ _ hopen => hopen) ?_) hfrom rfl
  -- Whoever waits now either did before or is the call, which uses the connection.
  intro k other hk hother
  by_cases hid : id = other
  · rw [← hid]
    exact hfrom
  · rw [Connection.held_expect_ne k id other hid] at hother
    exact h.waiting n k other hk hother

/-- A connection that nobody uses any more may be let go. -/
theorem inv_drops (h : Inv s) (hslot : s.client.slot ≠ some n) (hleaving : n ∉ s.leaving)
    (hplace : ∀ id, (s.place id).socket? ≠ some n) :
    Inv { s with client := s.client.without n } :=
  { h with
    nodup := s.client.nodup_sockets_keep _ h.nodup
    opened := fun m hm => h.opened m ((s.client.mem_sockets_without n m).mp hm).1
    slot := fun m hm => (s.client.mem_sockets_without n m).mpr
      ⟨h.slot m hm, fun hc => hslot (hc ▸ hm)⟩
    vacant := fun hlock =>
      ready?_eq_none_of s.client _ (s.client.ready?_of_without n · hslot) (h.vacant hlock)
    placed := fun id m hm => ⟨(s.client.mem_sockets_without n m).mpr
      ⟨(h.placed id m hm).1, fun hc => hplace id (hc ▸ hm)⟩, (h.placed id m hm).2⟩
    waiting := by
      intro m k id hk hheld
      by_cases hm : m = n
      · rw [hm, connection?_without_self] at hk
        exact absurd hk (Option.some_ne_none k).symm
      · rw [s.client.connection?_without n m hm] at hk
        exact h.waiting m k id hk hheld
    leaving := fun m hm => (s.client.mem_sockets_without n m).mpr
      ⟨h.leaving m hm, fun hc => hleaving (hc ▸ hm)⟩ }

theorem inv_step (s t : World) (e : Event) (h : Inv s) (hstep : Step s e t) : Inv t := by
  cases hstep with
  | finds id n hplace hlock hready =>
      exact inv_gives h hplace (h.slot n ((ready?_eq_some_iff _ _).mp hready).1)
  | dials id hplace hlock hready => exact inv_locks h hplace hlock hready
  | connects id n hplace hnew => exact inv_installs h hplace hnew
  | refused id kind text hplace => exact inv_quits _ h hplace
  | abandons id hplace => exact inv_quits _ h hplace
  | expects id n hplace => exact inv_expects h hplace
  | admits id n hplace hflag => exact inv_enters _ h (by rw [hplace]; rfl) rfl
  | repels id n hplace hflag => exact inv_leaves _ h (by rw [hplace]; rfl)
  | writes id n network p hplace =>
      exact inv_writes network p h (socket?_of_writer hplace)
  | interrupts id n p frame hplace hframe =>
      exact inv_interrupts p h (socket?_of_writer hplace) hframe
  | takes id n m r hplace hmail => exact inv_leaves _ h (by rw [hplace]; rfl)
  | cancels id n hplace => exact inv_leaves _ h hplace
  | flushes n count => exact inv_outbox _ h (fun _ => rfl) fun _ => rfl
  | arrives n octets =>
      exact inv_changes _ h (fun _ _ hopen => hopen) fun k id hk hid => h.waiting n k id hk hid
  | frame n k body rest hk hread hfound =>
      exact inv_settles k _ h hk (Connection.isOpen_acceptValue _ _)
        (Connection.settles_acceptValue s.client.target { k with inbox := rest } body)
  | breaks n k cause rest hk hread hfound =>
      refine inv_changes _ h (fun k' hk' hopen => ?_) fun _ id _ hid => h.waiting n k id hk hid
      rw [← Option.some.inj (hk.symm.trans hk')]
      exact hopen
  | rejects n k e rest hk hread hfound hanswer => exact inv_shuts k rest h hk
  | ends n k hk hread => exact inv_shuts k k.inbox h hk
  | closesNone hlock hslot => exact h
  | closes n hlock hslot =>
      -- With nothing in the slot there is nothing to use.
      exact
        { h with
          slot := fun m hm => absurd hm (Option.some_ne_none m).symm
          vacant := fun hc => absurd hlock hc
          leaving := by
            intro m hm
            rcases List.mem_cons.mp hm with rfl | hm
            · exact h.slot m hslot
            · exact h.leaving m hm }
  | marks n hleaving =>
      have hchanged := inv_changes (n := n) .mark h
        (fun _ _ hopen => absurd hopen Bool.false_ne_true)
        fun k id hk hid => h.waiting n k id hk hid
      exact { hchanged with leaving := fun m hm => hchanged.leaving m (List.mem_of_mem_erase hm) }
  | fails n k id hswept hk =>
      exact inv_settles k _ h hk (Connection.isOpen_fail k id)
        (Connection.settles_fail s.client.target k id)
  | drops n hslot hleaving hplace => exact inv_drops h hslot hleaving hplace

theorem reaches_single (hstep : Step s e t) : Reaches s t := .single ⟨e, hstep⟩

theorem Run.single (hstep : Step s e t) : Run s [e] t := .cons hstep (.nil t)

theorem Run.reaches (h : Run s es t) : Reaches s t := by
  induction h with
  | nil s => exact .refl
  | cons hstep _ ih => exact (reaches_single hstep).trans ih

theorem Run.append (hst : Run s es t) (htu : Run t fs u) : Run s (es ++ fs) u := by
  induction hst with
  | nil s => exact htu
  | cons hstep _ ih => exact .cons hstep (ih htu)

theorem inv_of_reaches (h : Inv s) (hreaches : Reaches s t) : Inv t := by
  induction hreaches with
  | refl => exact h
  | tail _ hstep ih =>
      rcases hstep with ⟨e, hstep⟩
      exact inv_step _ _ e ih hstep

theorem inv_of_reachable (target : Target) (limit : Nat) (s : World)
    (h : Reachable target limit s) : Inv s :=
  inv_of_reaches (inv_start target limit) h

end Client

end Gateway
