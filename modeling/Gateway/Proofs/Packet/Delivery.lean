import Gateway.Proofs.Client.Slots
import Gateway.Proofs.Frame.Stream
import Gateway.Proofs.Json.Depth

/-!
# Packets Survive the Wire

A backend reads the packet that a client wrote, with the same id, pattern and payload. What is put
into the frame is an object whose members stand in the order of their declaration, and what is
found in it is the object with these members sorted, so it is not the same text that is written
again; but a packet asks for its members by name.

The packet is one level deeper than its payload. A payload that was read itself may be nested as
deep as the reader can go, and is written none the less, since writing knows no limit. Then there is
a whole frame within the limit on its length, and no reader with the same limit on nesting reads it.
Every other payload gets across, so the depth of the payload alone decides
(`carried_packet_delivered`).

## Main definitions

* `Client.carry`: What a client does to get a packet across.
* `nested`: An array in an array, so many times.

## Theorems

* `Request.ofValue?_ofMembers`: A packet is read from its members.
* `wrote_of_mem_carry`: What a client writes is the frame of the packet, and it is within the limit.
* `exists_wrote_of_fits`: A packet within the limit is written.
* `carried_packet_delivered`: What is read from the frame.
-/

namespace Gateway

namespace Request

/-! ## Packets and Their Members -/

theorem ofMembers_call (id pattern : String) (data : Json) :
    Json.ofMembers (call id pattern data).members
      = .object [("data", data), ("id", .string id), ("pattern", .string pattern)] := by
  have hdata : "data" < "id" := by decide
  have hpattern : ¬ "pattern" < "id" := by decide
  simp [Json.ofMembers, members, call, Json.insert, hdata, hpattern]

theorem ofMembers_event (pattern : String) (data : Json) :
    Json.ofMembers (event pattern data).members
      = .object [("data", data), ("pattern", .string pattern)] := by
  have hdata : "data" < "pattern" := by decide
  simp [Json.ofMembers, members, event, Json.insert, hdata]

theorem ofValue?_ofMembers (p : Request) : ofValue? (Json.ofMembers p.members) = some p := by
  -- The members are sorted by then, and asked for by name.
  rcases p with ⟨_ | id, pattern, data⟩
  · exact congrArg ofValue? (ofMembers_event pattern data)
  · exact congrArg ofValue? (ofMembers_call id pattern data)

theorem nestingMembers_members (p : Request) : Json.nestingMembers p.members = p.data.nesting := by
  rcases p with ⟨_ | id, pattern, data⟩ <;>
    simp [members, Json.nestingMembers, Json.nesting]

theorem nesting_ofMembers (p : Request) :
    (Json.ofMembers p.members).nesting = p.data.nesting + 1 := by
  rcases p with ⟨_ | id, pattern, data⟩
  · rw [show (⟨none, pattern, data⟩ : Request) = event pattern data from rfl, ofMembers_event]
    simp [event, Json.nestingMembers, Json.nesting]
  · rw [show (⟨some id, pattern, data⟩ : Request) = call id pattern data from rfl, ofMembers_call]
    simp [call, Json.nestingMembers, Json.nesting]

theorem wellFormed_members (p : Request) (h : p.data.WellFormed) :
    Json.WellFormedMembers p.members := by
  rcases p with ⟨_ | id, pattern, data⟩ <;>
    simpa [members, Json.WellFormedMembers, Json.WellFormed] using h

theorem integral_members (p : Request) (h : p.data.Integral) :
    Json.IntegralMembers p.members := by
  rcases p with ⟨_ | id, pattern, data⟩ <;>
    simpa [members, Json.IntegralMembers, Json.Integral] using h

end Request

/-! ## What a Client Writes -/

namespace Client

/-- What a client does to get a packet across. -/
def carry (c : Client) (network : Network) (p : Request) : List Effect :=
  match p.id with
  | some id => (c.send network id p.pattern p.data).2.1
  | none => (c.emit network p.pattern p.data).2.1

variable (c : Client) (network : Network)

theorem wrote_of_mem_tidy {α : Type} (effects : List Effect) (a : α) (socket : Nat)
    (octets : Bytes) (h : .wrote socket octets ∈ (c.tidy effects a).2.1) :
    .wrote socket octets ∈ effects := by
  rcases List.mem_append.mp h with h | h
  · exact h
  · -- Letting connections go writes nothing.
    rcases List.mem_map.mp h with ⟨e, _, he⟩
    exact Effect.noConfusion he

theorem mem_tidy {α : Type} (effects : List Effect) (a : α) (e : Effect) (h : e ∈ effects) :
    e ∈ (c.tidy effects a).2.1 :=
  List.mem_append_left _ h

theorem not_wrote_of_acquire (dial : Dial) (socket : Nat) (octets : Bytes) :
    (c.acquire dial).1.limit = c.limit ∧ .wrote socket octets ∉ (c.acquire dial).2.1 := by
  cases hready : c.ready? with
  | some n => simp [acquire, hready]
  | none => cases dial <;> simp [acquire, hready]

/-- What was left by others is not what a call writes. -/
theorem not_wrote_of_backlog (used socket : Nat) (octets : Bytes) :
    .wrote socket octets ∉ c.backlog used := by
  rw [backlog]
  cases (c.outbox used).isEmpty with
  | true => exact List.not_mem_nil
  | false => exact fun h => Effect.noConfusion (List.mem_singleton.mp h)

theorem wrote_of_mem_write (p : Request) (used socket : Nat) (octets : Bytes)
    (h : .wrote socket octets ∈ (c.write network used p).2.1) :
    p.toText.length ≤ c.limit ∧ octets = Frame.frame p.toText := by
  rcases c.write_cases used network p with ⟨e, _, hwrite⟩ | ⟨_, _, _, _, _, hwrite⟩ |
    ⟨frame, hencode, hframe, _, hwrite⟩
  · rw [hwrite] at h
    exact absurd h List.not_mem_nil
  · rw [hwrite] at h
    exact absurd h List.not_mem_nil
  · refine ⟨?_, ?_⟩
    · by_contra hlong
      rw [Frame.encode_of_lt c.limit _ _ (Nat.lt_of_not_le hlong)] at hencode
      cases hencode
    · rw [hwrite] at h
      rcases List.mem_append.mp h with h | h
      · exact absurd h (c.not_wrote_of_backlog used socket octets)
      · injection List.mem_singleton.mp h with _ hoctets
        exact hoctets.trans hframe

/-- Of what is done over a connection that was taken, only the writing writes. -/
theorem wrote_of_mem_append (p : Request) (used socket : Nat) (octets : Bytes)
    (opened wrote : List Effect) (hopened : .wrote socket octets ∉ opened)
    (hwrote : (c.write network used p).2.1 = wrote) (h : .wrote socket octets ∈ opened ++ wrote) :
    p.toText.length ≤ c.limit ∧ octets = Frame.frame p.toText := by
  rcases List.mem_append.mp h with h | h
  · exact absurd h hopened
  · rw [← hwrote] at h
    exact c.wrote_of_mem_write network p used socket octets h

/-- What a client writes is the frame of the packet, and it is within the limit. -/
theorem wrote_of_mem_carry (p : Request) (socket : Nat) (octets : Bytes)
    (h : .wrote socket octets ∈ c.carry network p) :
    p.toText.length ≤ c.limit ∧ octets = Frame.frame p.toText := by
  rcases c.not_wrote_of_acquire network.dial socket octets with ⟨hlimit, hnone⟩
  rw [← hlimit]
  rcases p with ⟨_ | id, pattern, data⟩
  · simp only [carry, emit] at h
    split at h
    · rename_i hacquire
      rw [hacquire] at hnone
      exact absurd (wrote_of_mem_tidy _ _ _ _ _ h) hnone
    · rename_i hacquire
      rw [hacquire] at hnone ⊢
      -- The write went well or not; what it wrote is written either way.
      split at h <;> rename_i hwrite <;>
        exact wrote_of_mem_append _ _ _ _ _ _ _ _ hnone (congrArg (·.2.1) hwrite)
          (wrote_of_mem_tidy _ _ _ _ _ h)
  · simp only [carry, send] at h
    split at h
    · rename_i hacquire
      rw [hacquire] at hnone
      exact absurd (wrote_of_mem_tidy _ _ _ _ _ h) hnone
    · rename_i hacquire
      rw [hacquire] at hnone ⊢
      split at h <;> rename_i hwrite <;>
        exact wrote_of_mem_append (update _ _ _) _ _ _ _ _ _ _ hnone (congrArg (·.2.1) hwrite)
          (wrote_of_mem_tidy _ _ _ _ _ h)

theorem write_of_fits (p : Request) (dial : Dial) (used : Nat) (h : p.toText.length ≤ c.limit) :
    c.write ⟨dial, none⟩ used p = (c.update used .drain,
      c.backlog used ++ [.wrote used (Frame.frame p.toText)], .ok ()) := by
  have hfits := Frame.encode_of_le c.limit p.toText [] h
  rcases c.write_cases used ⟨dial, none⟩ p with ⟨e, hencode, _⟩ | ⟨_, _, _, _, hfault, _⟩ |
    ⟨frame, _, hframe, _, hwrite⟩
  · rw [hfits] at hencode
    cases hencode
  · exact absurd hfault (Option.some_ne_none _).symm
  · rw [hwrite, hframe]

theorem exists_acquire_connected (socket : Nat) :
    ∃ d opened used, c.acquire (.connected socket) = (d, opened, .ok used) ∧ d.limit = c.limit := by
  cases hready : c.ready? with
  | some used => exact ⟨c, [], used, by simp [acquire, hready], rfl⟩
  | none =>
      exact ⟨{ c with slot := some socket, connections := c.connections ++ [(socket, .fresh)] },
        [.opened socket], socket, by simp only [acquire, hready], rfl⟩

/-- Over a network that connects and takes what is written, a packet within the limit is written. -/
theorem exists_wrote_of_fits (p : Request) (socket : Nat) (h : p.toText.length ≤ c.limit) :
    ∃ used octets, .wrote used octets ∈ c.carry ⟨.connected socket, none⟩ p := by
  rcases c.exists_acquire_connected socket with ⟨d, opened, used, hacquire, hlimit⟩
  rw [← hlimit] at h
  refine ⟨used, Frame.frame p.toText, ?_⟩
  have hmem : ∀ before, .wrote used (Frame.frame p.toText)
      ∈ opened ++ (before ++ [Effect.wrote used (Frame.frame p.toText)]) := fun before =>
    List.mem_append_right _ (List.mem_append_right _ (List.mem_singleton_self _))
  rcases p with ⟨_ | id, pattern, data⟩
  · have hwrite := d.write_of_fits (.event pattern data) (.connected socket) used h
    simp only [carry, emit, hacquire, hwrite]
    exact mem_tidy _ _ _ _ (hmem _)
  · have hwrite := (d.update used (·.expect id)).write_of_fits (.call id pattern data)
      (.connected socket) used h
    simp only [carry, send, hacquire, hwrite]
    exact mem_tidy _ _ _ _ (hmem _)

/-! ## What Is Read from the Frame -/

/-- What is at the front of a buffer that holds the frame of a packet, for a payload that was read:
    the packet, unless the payload is as deep as a text can be. -/
theorem decode_frame_toText (limit : Nat) (p : Request) (text : Bytes)
    (hmemory : limit + 21 < 0x10000000000000000 ∨ p.toText.length ≤ Frame.capacity)
    (hfits : p.toText.length ≤ limit)
    (hparse : Json.parse text = .ok p.data) (hint : p.data.Integral) :
    (p.data.nesting < Json.maxNesting →
        Frame.decode limit (Frame.frame p.toText) = .frame (Json.ofMembers p.members) [])
      ∧ (p.data.nesting = Json.maxNesting →
        ∃ fault, Frame.decode limit (Frame.frame p.toText) = .refused (.json fault) []) := by
  -- What was read can be written and read again, for all that its depth does not forbid.
  have hwell := p.wellFormed_members (Json.within_of_parse text p.data hparse).1
  have hintegral := p.integral_members hint
  rw [Frame.capacity] at hmemory
  have hlength := Frame.length_frame_le p.toText (by omega)
  have hopened := Frame.decode_frame_opened limit p.toText [] hfits (by omega)
  rw [List.append_nil, List.append_nil, Frame.opened, List.take_length, List.drop_length]
    at hopened
  rw [hopened, Request.toText]
  constructor
  · intro hdepth
    rw [Json.parse_write_members p.members hwell hintegral (by
      rw [p.nestingMembers_members]
      exact hdepth)]
  · intro hdepth
    rcases Json.exists_fault_of_nesting p.members hwell hintegral (by
      rw [p.nesting_ofMembers]
      omega) with ⟨fault, hfault⟩
    exact ⟨fault, by rw [hfault]⟩

/-- What becomes of a payload that was read and given to a client. It is nested no deeper than a
    text can be. Whatever the client does, what it writes is decoded, under the same limit and to
    the last octet, to a value that is the packet with the id, the pattern and the payload it was
    given (or, of an event, with no id), if the payload is less deep than a text can be. A payload
    that is exactly as deep is refused as no JSON, and the frame is taken. And over a network that
    connects and takes what is written, a packet within the limit is written, however deep it is.
    The text of a packet is in a buffer, so that it is no longer than a buffer may be; that matters
    only under a limit so large that the extent of a frame may be no word. -/
theorem carried_packet_delivered (c : Client) (network : Network) (p : Request) (text : Bytes)
    (hmemory : c.limit + 21 < 0x10000000000000000 ∨ p.toText.length ≤ Frame.capacity)
    (hparse : Json.parse text = .ok p.data) (hint : p.data.Integral) :
    p.data.nesting ≤ Json.maxNesting
      ∧ (∀ socket octets, .wrote socket octets ∈ c.carry network p →
        (p.data.nesting < Json.maxNesting → ∃ v, Frame.decode c.limit octets = .frame v []
          ∧ Request.ofValue? v = some p)
        ∧ (p.data.nesting = Json.maxNesting →
          ∃ fault, Frame.decode c.limit octets = .refused (.json fault) []))
      ∧ (∀ socket, network = ⟨.connected socket, none⟩ → p.toText.length ≤ c.limit →
        ∃ used octets, .wrote used octets ∈ c.carry network p) := by
  refine ⟨(Json.within_of_parse text p.data hparse).2, fun socket octets hwrote => ?_,
    fun socket hnetwork hfits => ?_⟩
  · rcases c.wrote_of_mem_carry network p socket octets hwrote with ⟨hfits, rfl⟩
    rcases decode_frame_toText c.limit p text hmemory hfits hparse hint with ⟨hread, hrefused⟩
    exact ⟨fun hdepth => ⟨_, hread hdepth, p.ofValue?_ofMembers⟩, hrefused⟩
  · rw [hnetwork]
    exact c.exists_wrote_of_fits p socket hfits

end Client

/-! ## At the Limit -/

/-- An array in an array, so many times. -/
def nested : Nat → Json
  | 0 => .array []
  | n + 1 => .array [nested n]

theorem nesting_nested (n : Nat) : (nested n).nesting = n + 1 := by
  induction n with
  | zero => rfl
  | succ n ih => simp [nested, Json.nesting, Json.nestingItems, ih]

theorem wellFormed_nested (n : Nat) : (nested n).WellFormed := by
  induction n with
  | zero => trivial
  | succ n ih => exact ⟨ih, trivial⟩

theorem integral_nested (n : Nat) : (nested n).Integral := by
  induction n with
  | zero => trivial
  | succ n ih => exact ⟨ih, trivial⟩

theorem length_write_nested (n : Nat) : (nested n).write.length = 2 * n + 2 := by
  induction n with
  | zero => rfl
  | succ n ih =>
      rw [nested, Json.write_array, List.length_cons, List.length_append, ih]
      simp only [Json.writeRest, List.flatMap_nil, List.nil_append, List.length_singleton]
      omega

theorem parse_write_nested (n : Nat) (h : n < Json.maxNesting) :
    Json.parse (nested n).write = .ok (nested n) :=
  Json.parse_write _ (by rw [nesting_nested]; exact h) (wellFormed_nested n) (integral_nested n)

theorem length_toText_nested (n : Nat) :
    (Request.call "1" "p" (nested n)).toText.length = 2 * n + 34 := by
  have hid : (Json.writeString "id").length = 4 := by decide
  have hone : (Json.writeString "1").length = 3 := by decide
  have hpattern : (Json.writeString "pattern").length = 9 := by decide
  have hp : (Json.writeString "p").length = 3 := by decide
  have hdata : (Json.writeString "data").length = 6 := by decide
  simp [Request.toText, Request.members, Request.call, Json.write_object, Json.writeMember,
    Json.writeRestMembers, Json.write_string, length_write_nested, hid, hone, hpattern, hp, hdata]
  omega

theorem fits_nested (n : Nat) (h : n < Json.maxNesting) :
    (Request.call "1" "p" (nested n)).toText.length ≤ Frame.defaultLimit := by
  rw [length_toText_nested, Frame.defaultLimit]
  rw [Json.maxNesting] at h
  omega

/-- A payload that is as deep as a text can be is written in a call, and what is written is refused
    by a reader with the same limits. -/
theorem exists_refused_nested (n : Nat) (h : n + 1 = Json.maxNesting) :
    ∃ socket octets, .wrote socket octets
        ∈ ((Client.new .notification Frame.defaultLimit).send ⟨.connected 0, none⟩ "1" "p"
          (nested n)).2.1
      ∧ ∃ fault, Frame.decode Frame.defaultLimit octets = .refused (.json fault) [] := by
  have hfits := fits_nested n (by omega)
  have hparse := parse_write_nested n (by omega)
  rcases (Client.new .notification Frame.defaultLimit).exists_wrote_of_fits
    (.call "1" "p" (nested n)) 0 hfits with ⟨socket, octets, hwrote⟩
  refine ⟨socket, octets, hwrote, ?_⟩
  rw [(Client.wrote_of_mem_carry _ _ _ _ _ hwrote).2]
  exact (Client.decode_frame_toText Frame.defaultLimit (.call "1" "p" (nested n)) _
    (Or.inl (by decide)) hfits hparse (integral_nested n)).2 ((nesting_nested n).trans h)

/-- Such a payload is one that is read itself, and the call with it is within the default limit. -/
theorem deepest_payload_refused :
    Json.parse (nested 126).write = .ok (nested 126) ∧ (nested 126).Integral
      ∧ (Request.call "1" "p" (nested 126)).toText.length ≤ Frame.defaultLimit
      ∧ ∃ socket octets, .wrote socket octets
          ∈ ((Client.new .notification Frame.defaultLimit).send ⟨.connected 0, none⟩ "1" "p"
            (nested 126)).2.1
        ∧ ∃ fault, Frame.decode Frame.defaultLimit octets = .refused (.json fault) [] :=
  ⟨parse_write_nested 126 (by decide), integral_nested 126, fits_nested 126 (by decide),
    exists_refused_nested 126 rfl⟩

/-- One level less, and the payload gets across. -/
theorem carried_packet_delivered_nested :
    Json.parse (nested 125).write = .ok (nested 125) ∧ (nested 125).Integral
      ∧ (Request.call "1" "p" (nested 125)).toText.length ≤ Frame.capacity
      ∧ (nested 125).nesting < Json.maxNesting
      ∧ ∃ socket octets, .wrote socket octets
          ∈ (Client.new .notification Frame.defaultLimit).carry ⟨.connected 0, none⟩
            (.call "1" "p" (nested 125))
        ∧ ∃ v, Frame.decode Frame.defaultLimit octets = .frame v []
          ∧ Request.ofValue? v = some (.call "1" "p" (nested 125)) := by
  have hparse := parse_write_nested 125 (by decide)
  have hint := integral_nested 125
  have hmemory : (Request.call "1" "p" (nested 125)).toText.length ≤ Frame.capacity :=
    Nat.le_trans (fits_nested 125 (by decide)) (by decide)
  have hdepth : (nested 125).nesting < Json.maxNesting := by
    rw [nesting_nested]
    decide
  rcases Client.carried_packet_delivered (.new .notification Frame.defaultLimit)
    ⟨.connected 0, none⟩ (.call "1" "p" (nested 125)) _ (Or.inr hmemory) hparse hint with
    ⟨_, hread, hwritten⟩
  rcases hwritten 0 rfl (fits_nested 125 (by decide)) with ⟨socket, octets, hwrote⟩
  exact ⟨hparse, hint, hmemory, hdepth, socket, octets, hwrote,
    (hread socket octets hwrote).1 hdepth⟩

end Gateway
