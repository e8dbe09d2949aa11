/-!
# Rate limits

Each caller may use each route a number of times in a window of time that starts with their first
request. Who asks once more is refused, and from that moment on blocked for a while, even if the
window would have ended sooner; asking during a block does not prolong it. When the block is over
the next request starts a new window.

Windows that are over and carry no block can be swept away: the next request would have started a
new one anyway.

Times are milliseconds on any clock that does not go back, and each operation is given its own, so
the limiter itself keeps no clock.

## Main definitions

* `Quota`, `Quota.notifications` and so on: What a route allows.
* `Limiter`: The windows of all callers.
* `Limiter.check`: One request of a caller.
* `Limiter.sweep`: Forgets what does not matter any more.
-/

namespace Gateway

/-- What a route allows a caller. -/
structure Quota where
  route : String
  -- How many requests one window has.
  points : Nat
  -- How long a window is, in milliseconds.
  window : Nat
  -- How long a caller who asked too often is refused, in milliseconds.
  block : Nat
  message : String
  deriving DecidableEq, Repr

namespace Quota

/-- The quota for creating notifications. -/
def notifications : Quota :=
  ⟨"notifications", 10, 60000, 60000, "Too many requests, please try again later"⟩

/-- The quota for updating the inventory. -/
def inventory : Quota :=
  ⟨"inventory", 20, 60000, 60000, "Too many inventory requests, please try again later"⟩

/-- The quota for predictions. -/
def predictions : Quota :=
  ⟨"predictions", 5, 60000, 60000, "Too many prediction requests, please try again later"⟩

/-- The quota for broadcasts. -/
def broadcast : Quota :=
  ⟨"broadcast", 5, 60000, 60000, "Too many broadcast requests, please try again later"⟩

/-- The quotas of the gateway's routes. -/
def all : List Quota :=
  [notifications, inventory, predictions, broadcast]

end Quota

/-- What one caller used of one route. -/
structure Window where
  started : Nat
  used : Nat
  -- Until when the caller is refused, once they are.
  blockedUntil : Option Nat
  deriving DecidableEq, Repr

namespace Window

/-- A window that starts now. -/
def fresh (now : Nat) : Window :=
  ⟨now, 0, none⟩

/-- Whether a window is to be kept: it has not lasted for `longest`, or its caller is blocked. -/
def isLive (now longest : Nat) (w : Window) : Bool :=
  now - w.started < longest || (match w.blockedUntil with
    | some t => now < t
    | none => false)

end Window

/-- The answer to one request. -/
inductive Verdict where
  | admitted
  -- It is refused; asking again is in vain for so many milliseconds.
  | refused (wait : Nat)
  deriving DecidableEq, Repr

/-- What a request does to the window of its caller, and the answer to it. -/
def Window.check (now : Nat) (quota : Quota) (w : Window) : Window × Verdict :=
  let spend (w : Window) : Window × Verdict :=
    -- A window that is over is replaced by one that starts now, and so is one whose block is over.
    let w := if quota.window ≤ now - w.started then fresh now else w
    if quota.points ≤ w.used then
      ({ w with blockedUntil := some (now + quota.block) }, .refused quota.block)
    else ({ w with used := w.used + 1 }, .admitted)
  -- While the block lasts, asking does not prolong it.
  match w.blockedUntil with
  | some t => if now < t then (w, .refused (t - now)) else spend (fresh now)
  | none => spend w

/-- Who a window belongs to: the name of a route and a caller. -/
abbrev Limiter.Key := String × String

/-- The windows of all callers. -/
structure Limiter where
  -- The windows by route and caller, none twice.
  windows : List (Limiter.Key × Window) := []
  deriving Repr

namespace Limiter

/-- No windows. -/
def empty : Limiter := {}

/-- The window of a caller. -/
def find? (l : Limiter) (key : Key) : Option Window :=
  (l.windows.find? fun e => e.1 == key).map Prod.snd

/-- Puts the window of a caller in place of the one they had. -/
def put (key : Key) (w : Window) : List (Key × Window) → List (Key × Window)
  | [] => [(key, w)]
  | (k, v) :: rest => if k = key then (key, w) :: rest else (k, v) :: put key w rest

/-- One request of a caller at a given time. -/
def check (l : Limiter) (now : Nat) (quota : Quota) (caller : String) : Limiter × Verdict :=
  let key : Key := (quota.route, caller)
  let (w, verdict) := ((l.find? key).getD (.fresh now)).check now quota
  (⟨put key w l.windows⟩, verdict)

/-- Forgets the windows that are over and carry no block, where `longest` is at least as long as
    any window; gives how many they were. -/
def sweep (l : Limiter) (now longest : Nat) : Limiter × Nat :=
  let kept := l.windows.filter fun e => e.2.isLive now longest
  (⟨kept⟩, l.windows.length - kept.length)

/-- How many windows are kept. -/
def tracked (l : Limiter) : Nat :=
  l.windows.length

end Limiter

end Gateway
