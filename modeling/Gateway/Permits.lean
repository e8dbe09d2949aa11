/-!
# Permits

The gateway runs a limited number of calls at once, over all targets together. A call that is
admitted takes a permit and gives it back when it ends, whichever way it ends; a call that finds
none is turned away at once instead of waiting. That no more permits are out than there are is
part of the type.

## Main definitions

* `Permits`: How many permits there are, and how many are out.
* `Permits.acquire?`: Takes a permit if one is free.
* `Permits.release`: Gives one back.
-/

namespace Gateway

/-- The permits for concurrent calls. -/
structure Permits where
  limit : Nat
  taken : Nat
  taken_le : taken ≤ limit := by omega
  deriving Repr

namespace Permits

/-- All permits free. -/
def full (limit : Nat) : Permits :=
  ⟨limit, 0, Nat.zero_le _⟩

/-- How many permits are free. -/
def free (p : Permits) : Nat :=
  p.limit - p.taken

/-- Takes a permit, if one is free. -/
def acquire? (p : Permits) : Option Permits :=
  if h : p.taken < p.limit then some ⟨p.limit, p.taken + 1, h⟩ else none

/-- Gives a permit back. -/
def release (p : Permits) : Permits :=
  ⟨p.limit, p.taken - 1, Nat.le_trans (Nat.sub_le ..) p.taken_le⟩

end Permits

end Gateway
