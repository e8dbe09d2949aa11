import Gateway.Proofs.Frame.Decoding

/-!
# Octets in Chunks

Octets come in as the network cuts them, and after every chunk the decoder is asked until it has no
answer. Where the cuts are must not show: not in the frames, not in the error that ends the
decoding, and not in what is left.

It cannot show because a buffer that has been asked until there was no answer is a buffer that
nothing was decided about yet. What was decided before is what would have been decided with more
octets there (`drain_append`), so decoding in chunks is decoding the whole row at once
(`feedAll_eq`), and two ways of cutting one row agree because both agree with the row.

After an error nothing is decoded any more, and the chunks that have not come in yet belong to what
is left as well. Where the cuts were only decides which part of it is in the buffer.

## Main definitions

* `Fed`, `feedAll`: What comes of chunks that come in one after another.
* `Fed.undelivered`: What is left, in the buffer or not come in yet.
* `lastFault`: What the end of the input brings to light.

## Theorems

* `drain_append`: Decoding goes on where it stopped.
* `feedAll_eq`: Chunks are decoded as the row that they were cut from.
* `lastFault_eq`: At the end octets that are left over are an error, unless there was one before.
* `feedAll_cut`: Two ways of cutting a row into chunks make no difference.
-/

namespace Gateway

namespace Frame

/-! ## More Octets -/

/-- What was found before more octets came, and then what is found among those. -/
def Drained.andThen (found later : Drained) : Drained :=
  { later with frames := found.frames ++ later.frames }

theorem drain_append (limit : Nat) (buffer more : Bytes)
    (hroomy : Roomy limit (buffer ++ more).length) :
    drain limit (buffer ++ more)
      = match (drain limit buffer).error with
        | none => (drain limit buffer).andThen (drain limit ((drain limit buffer).rest ++ more))
        | some e => ⟨(drain limit buffer).frames, some e, (drain limit buffer).rest ++ more⟩ := by
  induction hn : buffer.length using Nat.strong_induction_on generalizing buffer with
  | _ n ih =>
    cases hfound : decode limit buffer with
    | nothing =>
        rw [drain_of_nothing buffer hfound]
        rfl
    | refused e rest =>
        -- An error stays the error that it is, and what came later is left over with the rest.
        have hmore := decode_append limit buffer more hroomy
          (by rw [hfound]; exact Found.noConfusion)
        rw [hfound] at hmore
        rw [drain_of_refused buffer rest e hfound,
          drain_of_refused (buffer ++ more) (rest ++ more) e hmore]
    | frame v rest =>
        -- A frame stays the frame that it is, and the induction goes on behind it.
        have hmore := decode_append limit buffer more hroomy
          (by rw [hfound]; exact Found.noConfusion)
        have hless := length_lt_of_frame limit buffer rest v hfound
        have hroomier : Roomy limit (rest ++ more).length := hroomy.mono (by
          rw [List.length_append, List.length_append]
          omega)
        rw [hfound] at hmore
        rw [drain_of_frame buffer rest v hfound,
          drain_of_frame (buffer ++ more) (rest ++ more) v hmore,
          ih rest.length (by omega) rest hroomier rfl]
        cases (drain limit rest).error <;> rfl

/-- Where decoding stopped without an error, there is no more left than there was, and nothing to
    find in it until more octets come. -/
theorem decode_drain_rest (limit : Nat) (buffer : Bytes) (h : (drain limit buffer).error = none) :
    (drain limit buffer).rest.length ≤ buffer.length
      ∧ decode limit (drain limit buffer).rest = .nothing := by
  induction hn : buffer.length using Nat.strong_induction_on generalizing buffer with
  | _ n ih =>
    cases hfound : decode limit buffer with
    | nothing =>
        rw [drain_of_nothing buffer hfound]
        exact ⟨hn.le, hfound⟩
    | refused e rest =>
        rw [drain_of_refused buffer rest e hfound] at h
        exact absurd h (Option.some_ne_none e)
    | frame v rest =>
        have hless := length_lt_of_frame limit buffer rest v hfound
        rw [drain_of_frame buffer rest v hfound] at h ⊢
        rcases ih rest.length (by omega) rest h rfl with ⟨hle, hnothing⟩
        exact ⟨hle.trans (by omega), hnothing⟩

/-! ## Chunks -/

/-- What comes of chunks that come in one after another: the frames in order, the error that ended
    the decoding if one did, the buffer that is left, and the chunks that were not looked at. -/
structure Fed where
  /-- The bodies of the frames. -/
  frames : List Json
  /-- What ended the decoding, if anything did. -/
  error : Option FrameError
  /-- The buffer that is left. -/
  rest : Bytes
  /-- The chunks after the one with the error. -/
  unfed : List Bytes

/-- Adds chunks to a buffer one after another and decodes after each until nothing or an error is
    found; an error ends it for good. -/
def feedAll (limit : Nat) : Bytes → List Bytes → Fed
  | buffer, [] => ⟨[], none, buffer, []⟩
  | buffer, chunk :: chunks =>
    let found := feed limit buffer chunk
    match found.error with
    | some e => ⟨found.frames, some e, found.rest, chunks⟩
    | none =>
      let later := feedAll limit found.rest chunks
      { later with frames := found.frames ++ later.frames }

/-- What is left: the buffer, and what was not looked at. -/
def Fed.undelivered (fed : Fed) : Bytes :=
  fed.rest ++ fed.unfed.flatten

/-- What the end of the input brings to light. A decoder that met an error is not asked again. -/
def lastFault (limit : Nat) (fed : Fed) : Option FrameError :=
  match fed.error with
  | some _ => none
  | none => (drainLast limit fed.rest).error

/-- What is said of octets that are left over at the end of the input. -/
def leftOver : FrameError :=
  .io .other "bytes remaining on stream"

/-- Chunks are decoded as the row that they were cut from, if there is nothing to find in the buffer
    that they are added to. While there is no error, every chunk is looked at. -/
theorem feedAll_eq (limit : Nat) (chunks : List Bytes) (buffer : Bytes)
    (hroomy : Roomy limit (buffer ++ chunks.flatten).length)
    (hbuffer : decode limit buffer = .nothing) :
    drain limit (buffer ++ chunks.flatten)
        = ⟨(feedAll limit buffer chunks).frames, (feedAll limit buffer chunks).error,
          (feedAll limit buffer chunks).undelivered⟩
      ∧ ((feedAll limit buffer chunks).error = none
        → (feedAll limit buffer chunks).unfed = []
          ∧ decode limit (feedAll limit buffer chunks).rest = .nothing) := by
  induction chunks generalizing buffer with
  | nil =>
      simp only [feedAll, Fed.undelivered, List.flatten_nil, List.append_nil]
      exact ⟨drain_of_nothing buffer hbuffer, fun _ => ⟨trivial, hbuffer⟩⟩
  | cons chunk chunks ih =>
      rw [List.flatten_cons, ← List.append_assoc] at hroomy ⊢
      rw [drain_append limit _ _ hroomy]
      cases herror : (drain limit (buffer ++ chunk)).error with
      | some e =>
          -- The chunks that are left were not looked at, and the row ends in the same error.
          simp only [feedAll, feed, herror, Fed.undelivered]
          exact ⟨trivial, fun hc => absurd hc (Option.some_ne_none e)⟩
      | none =>
          -- What is left in the buffer has nothing to find in it, which is what the induction asks.
          rcases decode_drain_rest limit (buffer ++ chunk) herror with ⟨hle, hnothing⟩
          have hroomier : Roomy limit
              ((drain limit (buffer ++ chunk)).rest ++ chunks.flatten).length := hroomy.mono (by
            rw [List.length_append, @List.length_append _ _ chunks.flatten]
            omega)
          rcases ih (drain limit (buffer ++ chunk)).rest hroomier hnothing with ⟨hdrain, hstopped⟩
          simp only [feedAll, feed, herror, Drained.andThen, hdrain, Fed.undelivered]
          exact ⟨trivial, hstopped⟩

theorem decode_nil (limit : Nat) : decode limit [] = .nothing :=
  decode_of_absent limit [] List.not_mem_nil

theorem drainLast_of_nothing (limit : Nat) (buffer : Bytes) (h : decode limit buffer = .nothing) :
    (drainLast limit buffer).error = if buffer ≠ [] then some leftOver else none := by
  cases buffer with
  | nil => simp only [drainLast, drainWith, decodeLast, h, List.isEmpty_nil, if_true, ne_eq,
      not_true_eq_false, if_false]
  | cons b bs =>
      simp only [drainLast, drainWith, decodeLast, h, List.isEmpty_cons, Bool.false_eq_true,
        if_false, leftOver, ne_eq, reduceCtorEq, not_false_eq_true, if_true]

/-- At the end, octets that are left over are an error, unless there was one before. -/
theorem lastFault_eq (limit : Nat) (chunks : List Bytes)
    (hroomy : Roomy limit chunks.flatten.length) :
    lastFault limit (feedAll limit [] chunks)
      = if (feedAll limit [] chunks).error = none ∧ (feedAll limit [] chunks).undelivered ≠ []
        then some leftOver else none := by
  rcases feedAll_eq limit chunks [] hroomy (decode_nil limit) with ⟨_, hstopped⟩
  cases herror : (feedAll limit [] chunks).error with
  | some e => simp only [lastFault, herror, reduceCtorEq, false_and, if_false]
  | none =>
      rcases hstopped herror with ⟨hunfed, hnothing⟩
      simp only [lastFault, herror, Fed.undelivered, hunfed, List.flatten_nil, List.append_nil,
        true_and]
      exact drainLast_of_nothing limit _ hnothing

/-- Two ways of cutting a row of octets into chunks make no difference: not to the frames, not to
    the error, not to what is left, and not to whether octets are left over at the end. The row is
    in memory, so that it is no longer than a buffer may be; that matters only under a limit so
    large that a frame may be longer. -/
theorem feedAll_cut (limit : Nat) (chunks pieces : List Bytes)
    (hmemory : limit + 21 < 0x8000000000000000 ∨ chunks.flatten.length < 0x8000000000000000)
    (hcut : chunks.flatten = pieces.flatten) :
    (feedAll limit [] chunks).frames = (feedAll limit [] pieces).frames
      ∧ (feedAll limit [] chunks).error = (feedAll limit [] pieces).error
      ∧ (feedAll limit [] chunks).undelivered = (feedAll limit [] pieces).undelivered
      ∧ (lastFault limit (feedAll limit [] chunks) = some leftOver
        ↔ lastFault limit (feedAll limit [] pieces) = some leftOver) := by
  have hroomy : Roomy limit chunks.flatten.length :=
    hmemory.imp Nat.le_of_lt_succ Nat.le_of_lt_succ
  have hroomy' : Roomy limit pieces.flatten.length := hcut ▸ hroomy
  rcases feedAll_eq limit chunks [] hroomy (decode_nil limit) with ⟨hchunks, _⟩
  rcases feedAll_eq limit pieces [] hroomy' (decode_nil limit) with ⟨hpieces, _⟩
  have hsame := hchunks.symm.trans ((congrArg (drain limit) hcut).trans hpieces)
  -- Both are what decoding the one row gives.
  rw [Drained.mk.injEq] at hsame
  rcases hsame with ⟨hframes, herror, hundelivered⟩
  refine ⟨hframes, herror, hundelivered, ?_⟩
  rw [lastFault_eq limit chunks hroomy, lastFault_eq limit pieces hroomy', herror, hundelivered]

/-- A frame and the start of a header that will not do, cut in the middle of everything and not cut
    at all. -/
theorem feedAll_cut_invalid_header :
    (10 + 21 < 0x8000000000000000 ∨ [utf8 "2", utf8 "#[", [], utf8 "]3", utf8 "x#",
      utf8 "["].flatten.length < 0x8000000000000000)
    ∧ [utf8 "2", utf8 "#[", [], utf8 "]3", utf8 "x#", utf8 "["].flatten = [utf8 "2#[]3x#["].flatten
    ∧ (feedAll 10 [] [utf8 "2", utf8 "#[", [], utf8 "]3", utf8 "x#", utf8 "["]).error
      = some .invalidHeader
    ∧ (feedAll 10 [] [utf8 "2", utf8 "#[", [], utf8 "]3", utf8 "x#", utf8 "["]).undelivered
      = utf8 "3x#[" := by
  have hcut : [utf8 "2", utf8 "#[", [], utf8 "]3", utf8 "x#", utf8 "["].flatten
      = [utf8 "2#[]3x#["].flatten := by decide
  rcases feedAll_cut 10 _ _ (Or.inl (by decide)) hcut with ⟨_, herror, hundelivered, _⟩
  exact ⟨Or.inl (by decide), hcut, herror.trans rfl, hundelivered.trans rfl⟩

end Frame

end Gateway
