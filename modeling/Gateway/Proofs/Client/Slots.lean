import Mathlib.Data.List.Nodup
import Gateway.Client
import Gateway.Proofs.Connection.Waiters

/-!
# The Slot and the Marks

What a client does about a call depends on very little of what it keeps: on the socket in its slot,
and on whether the connection over that socket is marked. The waiters and the inbox of a connection
have no part in it. So a client is looked at here through two views. `connection?` is what is kept
for one socket, and every change of a connection is described by what it does to that, for the
socket it is about and for all others. `flag?` is the mark alone, and says with the slot what
`ready?` is.

A connection is found by its socket in a list, and a change is made to all entries of that socket.
Both speak of the same entry only as long as no socket is in the list twice; the lemmas that need
it say so.

## Main definitions

* `sockets`: The sockets of the connections that were not let go.
* `flag?`: Whether the connection over a socket is open.
* `connect`: A client with a new connection in its slot.
* `Connection.fill`, `Connection.drain`: A connection with a frame more to go out, and with nothing.
* `keep`, `without`: A client that let connections go.

## Theorems

* `connection?_update`: What a change of a connection does to what is kept for a socket.
* `ready?_eq_some_iff`: When there is a connection for a call.
* `acquire_of_ready`, `acquire_of_vacant`: What becomes of a call in either case.
* `put_cases`, `write_cases`: What writing a packet does to a client.
-/

namespace Gateway

namespace Connection

/-- The connection with a frame behind what is to go out. -/
def fill (frame : Bytes) (k : Connection) : Connection :=
  { k with outbox := k.outbox ++ frame }

/-- The connection with nothing that is to go out. -/
def drain (k : Connection) : Connection :=
  { k with outbox := [] }

variable (k : Connection) (limit : Nat) (body frame : Bytes)

theorem put_of_error (e : FrameError) (h : Frame.encode limit body [] = .error e) :
    k.put limit body = (k, .error e) := by
  by_cases hlong : limit < body.length
  · rw [Frame.encode, Frame.put, if_pos hlong] at h
    rw [put, Frame.put, if_pos hlong, Except.error.inj h]
  · rw [Frame.encode, Frame.put, if_neg hlong] at h
    cases h

theorem put_of_ok (h : Frame.encode limit body [] = .ok frame) :
    k.put limit body = (k.fill frame, .ok ()) ∧ frame = Frame.frame body := by
  by_cases hlong : limit < body.length
  · rw [Frame.encode, Frame.put, if_pos hlong] at h
    cases h
  · rw [Frame.encode, Frame.put, if_neg hlong, List.nil_append, Except.ok.injEq] at h
    rw [put, Frame.put, if_neg hlong, h]
    exact ⟨rfl, rfl⟩

theorem flush_fill : (k.fill frame).flush (k.fill frame).outbox.length = k.drain := by
  rw [flush, List.drop_length]
  rfl

end Connection

namespace Client

/-- The sockets of the connections that were not let go. -/
def sockets (c : Client) : List Nat :=
  c.connections.map Prod.fst

/-- Whether the connection over a socket is open, if there is one. -/
def flag? (c : Client) (socket : Nat) : Option Bool :=
  (c.connection? socket).map Connection.isOpen

/-- The client with a new connection in its slot. -/
def connect (c : Client) (socket : Nat) : Client :=
  { c with slot := some socket, connections := c.connections ++ [(socket, .fresh)] }

/-- The client with the connections over some sockets only. -/
def keep (c : Client) (p : Nat → Bool) : Client :=
  { c with connections := c.connections.filter fun e => p e.1 }

/-- The client without the connection over a socket. -/
def without (c : Client) (socket : Nat) : Client :=
  c.keep (· != socket)

variable (c : Client) (socket other : Nat) (f g : Connection → Connection) (p q : Nat → Bool)

/-! ## Finding a Connection -/

theorem isSome_connection? : (c.connection? socket).isSome = true ↔ socket ∈ c.sockets := by
  rw [connection?, Option.isSome_map, List.isSome_find?, List.any_eq_true, sockets, List.mem_map]
  exact exists_congr fun e => and_congr_right fun _ => beq_iff_eq

theorem exists_connection (h : socket ∈ c.sockets) : ∃ k, c.connection? socket = some k :=
  Option.isSome_iff_exists.mp ((c.isSome_connection? socket).mpr h)

theorem mem_sockets (k : Connection) (h : c.connection? socket = some k) : socket ∈ c.sockets :=
  (c.isSome_connection? socket).mp (by rw [h, Option.isSome_some])

theorem connection?_eq_none (h : socket ∉ c.sockets) : c.connection? socket = none :=
  Option.not_isSome_iff_eq_none.mp fun hc => h ((c.isSome_connection? socket).mp hc)

/-- Without a socket that is in the list twice, every entry is found. -/
theorem connection?_of_mem (k : Connection) (hnodup : c.sockets.Nodup)
    (h : (socket, k) ∈ c.connections) : c.connection? socket = some k := by
  cases hfind : c.connections.find? fun e => e.1 == socket with
  | none => exact absurd (beq_self_eq_true socket) (List.find?_eq_none.mp hfind _ h)
  | some e =>
      have hsocket : e.1 = socket := by
        have hfound := List.find?_some hfind
        exact beq_iff_eq.mp hfound
      have he : e = (socket, k) :=
        List.inj_on_of_nodup_map hnodup (List.mem_of_find?_eq_some hfind) h hsocket
      rw [connection?, hfind, he, Option.map_some]

/-! ## Changing a Connection -/

theorem fst_changed (e : Nat × Connection) :
    (if e.1 == socket then (e.1, f e.2) else e).1 = e.1 := by
  split <;> rfl

theorem sockets_update : (c.update socket f).sockets = c.sockets := by
  rw [sockets, update, List.map_map, sockets]
  exact List.map_congr_left fun e _ => fst_changed socket f e

theorem connection?_update : (c.update socket f).connection? other
    = if other = socket then (c.connection? other).map f else c.connection? other := by
  -- The sockets stay where they are, so the same entry is found as before.
  have hsocket : ((fun e : Nat × Connection => e.1 == other)
      ∘ fun e => if e.1 == socket then (e.1, f e.2) else e) = fun e => e.1 == other := by
    funext e
    rw [Function.comp_apply, fst_changed]
  rw [connection?, update, List.find?_map, hsocket, connection?]
  cases hfind : c.connections.find? fun e => e.1 == other with
  | none => simp only [Option.map_none, ite_self]
  | some e =>
      have he : e.1 = other := by
        have hfound := List.find?_some hfind
        exact beq_iff_eq.mp hfound
      by_cases h : other = socket
      · simp only [Option.map_some, he, h, beq_self_eq_true, if_true]
      · simp only [Option.map_some, he, beq_eq_false_iff_ne.mpr h, Bool.false_eq_true, if_false,
          if_neg h]

theorem connection?_update_self (k : Connection) (h : c.connection? socket = some k) :
    (c.update socket f).connection? socket = some (f k) := by
  rw [connection?_update, if_pos rfl, h, Option.map_some]

theorem connection?_update_ne (h : other ≠ socket) :
    (c.update socket f).connection? other = c.connection? other := by
  rw [connection?_update, if_neg h]

theorem update_update : (c.update socket f).update socket g = c.update socket (g ∘ f) := by
  rw [update, update, update, List.map_map]
  congr 2
  funext e
  by_cases h : e.1 == socket
  · simp only [Function.comp_apply, if_pos h]
  · simp only [Function.comp_apply, if_neg h]

theorem update_id : c.update socket (fun k => k) = c := by
  have hmap : (c.connections.map fun e => if e.1 == socket then (e.1, e.2) else e)
      = c.connections :=
    (List.map_congr_left fun e _ => ite_self e).trans (List.map_id _)
  rw [update, hmap]

theorem update_const (k : Connection) :
    (c.update socket fun _ => k).update socket f = c.update socket fun _ => f k :=
  c.update_update socket _ f

theorem update_self (hsame : ∀ k, c.connection? socket = some k → f k = k)
    (hnodup : c.sockets.Nodup) : c.update socket f = c := by
  -- An entry of that socket is the one that is found, and so is left as it is.
  have hmap : (c.connections.map fun e => if e.1 == socket then (e.1, f e.2) else e)
      = c.connections := by
    refine (List.map_congr_left fun e he => ?_).trans (List.map_id _)
    by_cases h : e.1 == socket
    · have hfound := c.connection?_of_mem e.1 e.2 hnodup he
      rw [beq_iff_eq.mp h] at hfound
      rw [if_pos h, hsame e.2 hfound]
      rfl
    · rw [if_neg h]
      rfl
  rw [update, hmap]

/-! ## Making a Connection and Letting One Go -/

theorem sockets_connect : (c.connect socket).sockets = c.sockets ++ [socket] := by
  rw [sockets, connect, List.map_append]
  rfl

theorem connection?_connect (h : socket ∉ c.sockets) : (c.connect socket).connection? other
    = if other = socket then some .fresh else c.connection? other := by
  -- The new entry is the last one, and it is not found where an earlier one is.
  have hfind : (c.connect socket).connection? other
      = (c.connection? other).or (if other = socket then some .fresh else none) := by
    rw [connection?, connect, List.find?_append, Option.map_or]
    congr 1
    by_cases hother : other = socket
    · simp only [List.find?, hother, beq_self_eq_true, Option.map_some, if_true]
    · have hne : (socket == other) = false := beq_eq_false_iff_ne.mpr fun hc => hother hc.symm
      simp only [List.find?, hne, Option.map_none, if_neg hother]
  rw [hfind]
  by_cases hother : other = socket
  · rw [hother, c.connection?_eq_none socket h, if_pos rfl, Option.none_or]
  · rw [if_neg hother, if_neg hother, Option.or_none]

theorem mem_sockets_keep : socket ∈ (c.keep p).sockets ↔ socket ∈ c.sockets ∧ p socket = true := by
  simp only [sockets, keep, List.mem_map, List.mem_filter]
  constructor
  · rintro ⟨e, ⟨he, hp⟩, rfl⟩
    exact ⟨⟨e, he, rfl⟩, hp⟩
  · rintro ⟨⟨e, he, rfl⟩, hp⟩
    exact ⟨e, ⟨he, hp⟩, rfl⟩

theorem nodup_sockets_keep (h : c.sockets.Nodup) : (c.keep p).sockets.Nodup :=
  h.sublist (List.Sublist.map Prod.fst List.filter_sublist)

theorem connection?_keep (h : p socket = true) :
    (c.keep p).connection? socket = c.connection? socket := by
  rw [connection?, keep, List.find?_filter, connection?]
  congr 2
  funext e
  by_cases he : e.1 = socket
  · simp only [he, h, beq_self_eq_true, and_self, decide_true]
  · simp only [beq_eq_false_iff_ne.mpr he, Bool.false_eq_true, and_false, decide_false]

theorem keep_keep : (c.keep p).keep q = c.keep fun n => p n && q n := by
  simp only [keep, List.filter_filter, Bool.and_comm]

theorem mem_sockets_without : other ∈ (c.without socket).sockets
    ↔ other ∈ c.sockets ∧ other ≠ socket := by
  rw [without, mem_sockets_keep, bne_iff_ne]

theorem connection?_without (h : other ≠ socket) :
    (c.without socket).connection? other = c.connection? other :=
  c.connection?_keep other _ (bne_iff_ne.mpr h)

theorem connection?_without_self : (c.without socket).connection? socket = none :=
  connection?_eq_none _ _ fun hc => ((c.mem_sockets_without socket socket).mp hc).2 rfl

/-! ## The Marks -/

theorem flag?_eq_some (k : Connection) (h : c.connection? socket = some k) :
    c.flag? socket = some k.isOpen := by
  rw [flag?, h, Option.map_some]

theorem flag?_update : (c.update socket f).flag? other
    = if other = socket then (c.connection? other).map fun k => (f k).isOpen
      else c.flag? other := by
  rw [flag?, connection?_update]
  split
  · rw [Option.map_map]
    rfl
  · rfl

/-- A change that leaves the mark alone leaves all marks alone. -/
theorem flag?_update_of_isOpen
    (h : ∀ k, c.connection? socket = some k → (f k).isOpen = k.isOpen) :
    (c.update socket f).flag? other = c.flag? other := by
  rw [flag?_update]
  split
  · next hother =>
      rw [flag?, hother]
      cases hk : c.connection? socket with
      | none => rfl
      | some k => rw [Option.map_some, Option.map_some, h k hk]
  · rfl

/-- A change that opens nothing that was closed leaves no mark off. -/
theorem flag?_of_update (h : ∀ k, c.connection? socket = some k → (f k).isOpen = true →
    k.isOpen = true) (hflag : (c.update socket f).flag? other = some true) :
    c.flag? other = some true := by
  rw [flag?_update] at hflag
  split at hflag
  · next hother =>
      rcases Option.map_eq_some_iff.mp hflag with ⟨k, hk, hopen⟩
      rw [hother] at hk ⊢
      rw [c.flag?_eq_some socket k hk, h k hk hopen]
  · exact hflag

/-- There is a connection for a call if the one in the slot is open. -/
theorem ready?_eq_some_iff : c.ready? = some socket
    ↔ c.slot = some socket ∧ c.flag? socket = some true := by
  cases hslot : c.slot with
  | none => simp only [ready?, hslot, Option.bind_none, reduceCtorEq, false_and]
  | some n =>
      rw [Option.some.injEq]
      cases hk : c.connection? n with
      | none =>
          simp only [ready?, hslot, Option.bind_some, hk, reduceCtorEq, false_iff, not_and]
          rintro rfl
          simp only [flag?, hk, Option.map_none, reduceCtorEq, not_false_eq_true]
      | some k =>
          cases hopen : k.isOpen with
          | true =>
              simp only [ready?, hslot, Option.bind_some, hk, hopen, if_true, Option.some.injEq]
              refine ⟨?_, fun h => h.1⟩
              rintro rfl
              exact ⟨rfl, by rw [flag?, hk, Option.map_some, hopen]⟩
          | false =>
              simp only [ready?, hslot, Option.bind_some, hk, hopen, Bool.false_eq_true, if_false,
                reduceCtorEq, false_iff, not_and]
              rintro rfl
              simp only [flag?, hk, Option.map_some, hopen, Option.some.injEq, Bool.false_eq_true,
                not_false_eq_true]

theorem ready?_of_flag? (d : Client) (hslot : d.slot = c.slot)
    (hflag : d.flag? socket = some true → c.flag? socket = some true)
    (h : d.ready? = some socket) : c.ready? = some socket := by
  rcases (d.ready?_eq_some_iff socket).mp h with ⟨hin, hopen⟩
  exact (c.ready?_eq_some_iff socket).mpr ⟨hslot ▸ hin, hflag hopen⟩

theorem ready?_of_without (hslot : c.slot ≠ some socket)
    (h : (c.without socket).ready? = some other) : c.ready? = some other := by
  refine ready?_of_flag? c other (c.without socket) rfl (fun hflag => ?_) h
  -- What is let go was not in the slot, so it is not what there is to use.
  have hne : other ≠ socket := by
    rintro rfl
    exact hslot ((ready?_eq_some_iff _ _).mp h).1
  rw [flag?, c.connection?_without socket other hne] at hflag
  exact hflag

theorem ready?_connect (h : socket ∉ c.sockets) : (c.connect socket).ready? = some socket := by
  refine (ready?_eq_some_iff _ _).mpr ⟨rfl, ?_⟩
  rw [flag?, connection?_connect c socket socket h, if_pos rfl]
  rfl

/-! ## Calls -/

theorem acquire_of_ready (dial : Dial) (h : c.ready? = some socket) :
    c.acquire dial = (c, [], .ok socket) := by
  simp only [acquire, h]

theorem acquire_of_vacant (h : c.ready? = none) :
    c.acquire (.connected socket) = (c.connect socket, [.opened socket], .ok socket) := by
  simp only [acquire, h, connect]

theorem acquire_of_failed (kind : IoKind) (text : String) (h : c.ready? = none) :
    c.acquire (.failed kind text) = (c, [], .error (.transport c.target kind text)) := by
  simp only [acquire, h]

/-- A packet that is too long is not put into the buffer, and then nothing happens; or it is put
    behind what is there. -/
theorem put_cases (p : Request) :
    (∃ e, Frame.encode c.limit p.toText [] = .error e
        ∧ c.put socket p = (c, .error (.codec c.target e)))
      ∨ ∃ frame, Frame.encode c.limit p.toText [] = .ok frame ∧ frame = Frame.frame p.toText
        ∧ c.put socket p = (c.update socket (·.fill frame), .ok ()) := by
  cases hencode : Frame.encode c.limit p.toText [] with
  | error e =>
      have hput := fun k : Connection => k.put_of_error c.limit p.toText e hencode
      refine Or.inl ⟨e, rfl, ?_⟩
      simp only [put, hput, update_id]
      rfl
  | ok frame =>
      have hput := fun k : Connection => k.put_of_ok c.limit p.toText frame hencode
      refine Or.inr ⟨frame, rfl, (hput .fresh).2, ?_⟩
      simp only [put, (hput _).1]
      rfl

/-- A packet is not written because it is too long, and then nothing happens; or because writing
    fails, and then the connection is marked and the packet stays in the buffer; or it is written,
    after all that was in the buffer. -/
theorem write_cases (network : Network) (p : Request) :
    (∃ e, Frame.encode c.limit p.toText [] = .error e
        ∧ c.write network socket p = (c, [], .error (.codec c.target e)))
      ∨ (∃ frame kind text, Frame.encode c.limit p.toText [] = .ok frame
        ∧ network.writeFault = some (kind, text)
        ∧ c.write network socket p
          = (c.update socket fun k => (k.fill frame).mark, [],
            .error (.transport c.target kind text)))
      ∨ ∃ frame, Frame.encode c.limit p.toText [] = .ok frame ∧ frame = Frame.frame p.toText
        ∧ network.writeFault = none
        ∧ c.write network socket p
          = (c.update socket .drain, c.backlog socket ++ [.wrote socket frame], .ok ()) := by
  rcases c.put_cases socket p with ⟨e, hencode, hput⟩ | ⟨frame, hencode, hframe, hput⟩
  · exact Or.inl ⟨e, hencode, by rw [write, hput]⟩
  · cases hfault : network.writeFault with
    | none =>
        refine Or.inr (Or.inr ⟨frame, hencode, hframe, rfl, ?_⟩)
        have hdrain : (fun k : Connection => k.flush k.outbox.length) ∘ (·.fill frame)
            = Connection.drain := funext fun k => k.flush_fill frame
        simp only [write, hput, hfault, update_update, hdrain, ← hframe]
    | some fault =>
        refine Or.inr (Or.inl ⟨frame, fault.1, fault.2, hencode, rfl, ?_⟩)
        simp only [write, hput, hfault, update_update]
        rfl

end Client

end Gateway
