import Gateway.Text.Utf8

/-!
# Text for terminals

A terminal takes some characters as orders: control characters, and sequences that begin with an
escape. What is not written to a terminal has to do without them, so they are taken out of texts
that others have made. Tabulators and the ends of lines and pages are kept, also inside a sequence;
what follows one of these there is shown until the next control character.

Sequences are those of the usual terminals. A control sequence runs to its first letter. An order
to the operating system runs to a bell, and the other strings to an octet that only occurs inside
of longer characters; another escape ends each of them too.

## Main definitions

* `Terminal.State`: What a terminal is in the middle of.
* `Terminal.plain`: What is left of a text without orders.
-/

namespace Gateway

namespace Terminal

/-- What a terminal is in the middle of. -/
inductive State where
  | ground
  | escape
  -- After an escape and signs that tell its kind.
  | escapeSigns
  | control
  | device
  | deviceParameters
  | deviceSigns
  | string
  -- In an order to the operating system.
  | system
  deriving DecidableEq, Repr

/-- Whether a control character is shown all the same. -/
def isBlank (n : Nat) : Bool :=
  n == 9 || n == 10 || n == 12 || n == 13

/-- What a terminal is in the middle of after one more character that is shown nowhere. -/
def State.next (s : State) (c : Char) : State :=
  let n := c.toNat
  if n = 0x18 || n = 0x1A then .ground
  else if n = 0x1B then .escape
  else match s with
    | .ground => .ground
    | .escape =>
      if n < 0x20 || 0x7F ≤ n then .escape
      else if n < 0x30 then .escapeSigns
      else if c = '[' then .control
      else if c = ']' then .system
      else if c = 'P' then .device
      else if c = 'X' || c = '^' || c = '_' then .string
      else .ground
    | .escapeSigns => if 0x30 ≤ n && n < 0x7F then .ground else .escapeSigns
    | .control => if 0x40 ≤ n && n < 0x7F then .ground else .control
    | .device =>
      if n < 0x20 || 0x7F ≤ n then .device
      else if n < 0x30 then .deviceSigns
      else if n < 0x40 then .deviceParameters
      else .string
    | .deviceParameters =>
      if n < 0x20 || 0x7F ≤ n || (0x30 ≤ n && n < 0x3C) then .deviceParameters
      else if n < 0x30 then .deviceSigns
      else .string
    | .deviceSigns => if 0x30 ≤ n && n < 0x7F then .string else .deviceSigns
    | .string => if (Utf8.encodeChar c).contains 0x9C then .ground else .string
    | .system => if n = 7 then .ground else .system

/-- Whether blanks are shown inside. -/
def State.showsBlanks : State → Bool
  | .ground | .escape | .escapeSigns | .control => true
  | _ => false

/-- What is left of a text, when `isShown` tells whether characters are shown although the terminal
    is in the middle of something. -/
def plainFrom : State → Bool → List Char → List Char
  | _, _, [] => []
  | s, isShown, c :: cs =>
    let n := c.toNat
    if 0x7F < n && (isShown || s = .ground) then c :: plainFrom .ground true cs
    else if 0x20 ≤ n && n < 0x7F && (isShown || s = .ground) then c :: plainFrom s true cs
    else if isBlank n && s.showsBlanks then c :: plainFrom s true cs
    else plainFrom (s.next c) false cs

/-- What is left of a text without orders to a terminal. -/
def plain (s : String) : String :=
  String.ofList (plainFrom .ground true s.toList)

end Terminal

end Gateway
