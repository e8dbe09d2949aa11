import Gateway.Packet

/-!
# Frames

Packets travel in frames: the length of the body in decimal, a `#`, and the body, which is JSON.
The length counts octets. A header has at most twenty digits, so a `#` that is not among the first
twenty-one octets will never come; until then the decoder waits. A length over the limit is refused
as soon as the header is complete, before any of the body has arrived.

Decoding looks at a buffer and says what is at its front and what is left of it. Nothing is taken
from the buffer unless a whole frame is there; a frame whose body is not JSON is taken too.

Whether it is there is asked by its extent, and that has to be a word. While some of it is missing,
room is made for all of it, and a buffer may hold less than half of what a word can count. A length
is announced by the other end and bounded by nothing but the limit. So under a large limit a header
may announce a frame whose extent is no word, or one that no buffer may hold, and the decoder breaks
down.

## Main definitions

* `FrameError`, `Breakdown`: Why a frame cannot be read or written.
* `Frame.decode`: What is at the front of a buffer.
* `Frame.drain`, `Frame.feed`: Decodes until nothing or an error is found.
* `Frame.put`, `Frame.encode`: Appends a frame to a buffer.
-/

namespace Gateway

/-- What went wrong with a socket, as the operating system classes it. -/
inductive IoKind where
  | connectionRefused
  | connectionReset
  | brokenPipe
  | timedOut
  | addrInUse
  | other
  deriving DecidableEq, Repr

/-- The name of a class of socket errors. -/
def IoKind.name : IoKind → String
  | .connectionRefused => "ConnectionRefused"
  | .connectionReset => "ConnectionReset"
  | .brokenPipe => "BrokenPipe"
  | .timedOut => "TimedOut"
  | .addrInUse => "AddrInUse"
  | .other => "Other"

/-- How a decoder breaks down, and no longer gives answers. -/
inductive Breakdown where
  -- The extent of a frame is no word.
  | sum
  -- No buffer may hold as much as the extent of a frame.
  | room
  deriving DecidableEq, Repr

/-- What is reported of a breakdown. -/
def Breakdown.message : Breakdown → String
  | .sum => "attempt to add with overflow"
  | .room => "capacity overflow"

/-- Why a frame cannot be read or written. -/
inductive FrameError where
  | io (kind : IoKind) (text : String)
  | json (fault : Fault)
  -- The header is not a length.
  | invalidHeader
  | tooLarge (length limit : Nat)
  -- There is no answer, as the decoder broke down.
  | broken (cause : Breakdown)
  deriving DecidableEq, Repr

/-- The message of a frame error. What exactly is wrong with a body is not told; its place in the
    message is marked. -/
def FrameError.message : FrameError → String
  | .io _ text => "i/o error: " ++ text
  | .json _ => "invalid json body: <detail>"
  | .invalidHeader => "invalid frame length header"
  | .tooLarge length limit =>
    "frame of " ++ Decimal.text length ++ " bytes exceeds the " ++ Decimal.text limit
      ++ " byte limit"
  | .broken cause => cause.message

/-- Whether an error is a breakdown. -/
def FrameError.isBreakdown : FrameError → Bool
  | .broken _ => true
  | .io _ _ | .json _ | .invalidHeader | .tooLarge _ _ => false

namespace Frame

/-- The most digits a header has. -/
def maxHeader : Nat := 20

/-- The limit on bodies when none is configured: sixteen binary megabytes. -/
def defaultLimit : Nat := 16 * 1024 * 1024

/-- The most octets that a buffer may hold. -/
def capacity : Nat := 0x7FFFFFFFFFFFFFFF

/-- The octet between header and body. -/
def delimiter : UInt8 := ascii '#'

/-- What is at the front of a buffer. -/
inductive Found where
  -- Not enough to say.
  | nothing
  -- A frame with the given body, and the buffer after it.
  | frame (body : Json) (rest : Bytes)
  | refused (error : FrameError) (rest : Bytes)

/-- The octets before the first `#`, if one is among the first twenty-one octets. -/
def header? (buffer : Bytes) : Option Bytes :=
  let front := buffer.take (maxHeader + 1)
  let header := front.takeWhile (· != delimiter)
  if header.length < front.length then some header else none

/-- The length a header stands for: some digits, of a value that fits one word. -/
def length? (header : Bytes) : Option Nat :=
  if header.isEmpty || !header.all Decimal.isDigit then none
  else if Decimal.value header < 0x10000000000000000 then some (Decimal.value header)
  else none

/-- Whether a buffer holds at least so many octets; no more of it is looked at. -/
def holds : Nat → Bytes → Bool
  | 0, _ => true
  | _ + 1, [] => false
  | n + 1, _ :: bs => holds n bs

theorem holds_eq (n : Nat) (bs : Bytes) : holds n bs = decide (n ≤ bs.length) := by
  induction n generalizing bs with
  | zero => simp [holds]
  | succ n ih => cases bs <;> simp [holds, ih]

/-- What is at the front of a buffer, for bodies of at most `limit` octets. -/
def decode (limit : Nat) (buffer : Bytes) : Found :=
  match header? buffer with
  | none =>
    -- A `#` that is not there by now will never come.
    if maxHeader < buffer.length then .refused .invalidHeader buffer else .nothing
  | some header =>
    match length? header with
    | none => .refused .invalidHeader buffer
    | some length =>
      let extent := header.length + 1 + length
      -- The header alone decides, before any of the body has to be there.
      if limit < length then .refused (.tooLarge length limit) buffer
      else if 0x10000000000000000 ≤ extent then .refused (.broken .sum) buffer
      else if holds extent buffer then
        let body := buffer.drop (header.length + 1)
        -- From here on the frame is taken, whatever its body is.
        match Json.parse (body.take length) with
        | .ok v => .frame v (body.drop length)
        | .error fault => .refused (.json fault) (body.drop length)
      -- Room is made for what is missing.
      else if capacity < extent then .refused (.broken .room) buffer
      else .nothing

/-- What is at the front of a buffer that nothing more is added to: octets that are left over are an
    error. -/
def decodeLast (limit : Nat) (buffer : Bytes) : Found :=
  match decode limit buffer with
  | .nothing =>
    if buffer.isEmpty then .nothing
    else .refused (.io .other "bytes remaining on stream") buffer
  | found => found

/-- What repeated decoding gives: the frames in order, the error that ended it if one did, and the
    buffer that is left. -/
structure Drained where
  frames : List Json
  -- What ended the decoding, unless there was nothing more to decode.
  error : Option FrameError
  rest : Bytes

/-- Decodes until nothing or an error is found. Every frame takes at least two octets, so the
    length of the buffer bounds the rounds. -/
def drainWith (find : Bytes → Found) : Nat → List Json → Bytes → Drained
  | 0, acc, buffer => ⟨acc.reverse, none, buffer⟩
  | fuel + 1, acc, buffer =>
    match find buffer with
    | .nothing => ⟨acc.reverse, none, buffer⟩
    | .refused e rest => ⟨acc.reverse, some e, rest⟩
    | .frame v rest => drainWith find fuel (v :: acc) rest

/-- Decodes a buffer until nothing or an error is found. -/
def drain (limit : Nat) (buffer : Bytes) : Drained :=
  drainWith (decode limit) (buffer.length + 1) [] buffer

/-- Decodes a buffer to which nothing more is added. -/
def drainLast (limit : Nat) (buffer : Bytes) : Drained :=
  drainWith (decodeLast limit) (buffer.length + 1) [] buffer

/-- Adds octets to a buffer and decodes until nothing or an error is found. -/
def feed (limit : Nat) (buffer octets : Bytes) : Drained :=
  drain limit (buffer ++ octets)

/-- Adds the last octets to a buffer and decodes until nothing or an error is found. -/
def feedLast (limit : Nat) (buffer octets : Bytes) : Drained :=
  drainLast limit (buffer ++ octets)

/-- The frame of a body. -/
def frame (body : Bytes) : Bytes :=
  Decimal.digits body.length ++ delimiter :: body

/-- Appends the frame of a body to a buffer, unless the body is longer than the limit. Gives the
    buffer as it is afterwards, also if nothing was appended. -/
def put (limit : Nat) (body buffer : Bytes) : Bytes × Except FrameError Unit :=
  if limit < body.length then (buffer, .error (.tooLarge body.length limit))
  else (buffer ++ frame body, .ok ())

/-- The buffer with the frame of a body appended, or why it was not. -/
def encode (limit : Nat) (body buffer : Bytes) : Except FrameError Bytes :=
  match put limit body buffer with
  | (buffer, .ok ()) => .ok buffer
  | (_, .error e) => .error e

end Frame

end Gateway
