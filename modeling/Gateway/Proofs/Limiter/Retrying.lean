import Gateway.Http.ApiError
import Gateway.Proofs.Limiter.Blocking

/-!
# Asking Again After a Refusal

Who is refused is told to wait for a whole number of seconds. The block that refuses them ends at
some instant of the clock, and the seconds are what is left of it rounded down, though at least one.
So a caller who waits as they were told may still come too early, by less than a second and only
once. They never do when what was left was a number of whole seconds, which it is for the request
that a block begins with, or when it was a second at most, and one second more is enough for all.

How fine the clock is plays no part. The limiter counts the ticks of it, and the seconds are told
from how long a tick is: a nanosecond for the clock of a machine, or a millisecond where nothing
finer is asked for. A quota that is given in milliseconds is the same quota on a finer clock when
its window and its block are counted in the ticks of that (`Quota.refined`).

Where the block came from plays no part: a refusal says when it ends (`blockedUntil_of_refused`),
and from there on only the caller could change that (`Window.follow_blocked`).

## Main definitions

* `Limiter.announced`: The seconds that a refused caller is told to wait.
* `Quota.refined`: A quota on a finer clock.

## Theorems

* `Limiter.announced_lt_iff`: When the seconds are less than what is left of a block.
* `Limiter.check_after_refusal`: A refused caller is refused again until the block ends, and no
  longer.
* `Limiter.retry_exact`: What becomes of a caller who waits as they were told.
-/

namespace Gateway

/-- The same quota on a clock that ticks so many times in a millisecond. -/
def Quota.refined (quota : Quota) (ticks : Nat) : Quota :=
  { quota with window := quota.window * ticks, block := quota.block * ticks }

namespace Limiter

open Window

/-- The seconds that a caller is told to wait who is refused for so many nanoseconds. -/
def announced (wait : Nat) : Nat :=
  max (wait / 1000000000) 1

/-- One second more than announced is longer than what is left of the block. -/
theorem lt_announced_succ (wait : Nat) : wait < (announced wait + 1) * 1000000000 := by
  unfold announced
  omega

/-- The seconds fall short of what is left of the block if that is more than one and no whole
    number of them. -/
theorem announced_lt_iff (wait : Nat) :
    announced wait * 1000000000 < wait ↔ 1000000000 < wait ∧ wait % 1000000000 ≠ 0 := by
  unfold announced
  omega

theorem retrySeconds_eq (wait : Nat) : ApiError.retrySeconds wait = announced wait :=
  rfl

/-- A refusal is answered with the seconds to wait. -/
theorem tooManyRequests_response (message : String) (wait : Nat) :
    (ApiError.tooManyRequests message wait).response.status = 429
      ∧ (ApiError.tooManyRequests message wait).response.headers.lookup "retry-after"
        = some (utf8 (Decimal.text (announced wait))) := by
  rw [← retrySeconds_eq]
  exact ⟨rfl, rfl⟩

end Limiter

namespace Window

/-- Whatever a caller is refused for, their window is blocked for as long as they are told. -/
theorem blockedUntil_of_refused (now : Nat) (quota : Quota) (w : Window) (wait : Nat)
    (h : (w.check now quota).2 = .refused wait) :
    (w.check now quota).1.blockedUntil = some (now + wait) := by
  rcases refused_cases now quota w wait h with ⟨time, hblocked, hlt, rfl⟩ | ⟨hexhausted, rfl⟩
  · rw [check_of_isBlocked now quota w time hblocked hlt, hblocked,
      Nat.add_sub_cancel' (Nat.le_of_lt hlt)]
  · rw [check_of_isExhausted now quota w hexhausted]
    rfl

end Window

namespace Limiter

open Window

section Refused

variable {quota : Quota} {caller : String} {before between : List Occasion} {time now wait : Nat}

/-- After a refusal its caller holds the window that is blocked, unless a sweep has come since the
    block was over and they hold none. -/
theorem held_of_refused
    (horder : InOrder (before ++ ⟨time, .request quota caller⟩ :: between
      ++ [⟨now, .request quota caller⟩]))
    (hnone : ∀ o ∈ between, o.isRequestOf (quota.route, caller) = false)
    (hrefused : ((empty.runAll before).1.check time quota caller).2 = .refused wait) :
    (∃ w, (empty.runAll (before ++ ⟨time, .request quota caller⟩ :: between)).1.find?
          (quota.route, caller) = some w
        ∧ w.blockedUntil = some (time + wait))
      ∨ (empty.runAll (before ++ ⟨time, .request quota caller⟩ :: between)).1.find?
          (quota.route, caller) = none
        ∧ time + wait ≤ now := by
  have hblocked := blockedUntil_of_refused time quota
    ((empty.runAll before).1.met time (quota.route, caller)) wait hrefused
  have hsplit : before ++ ⟨time, .request quota caller⟩ :: between
      = before ++ [⟨time, .request quota caller⟩] ++ between := by
    rw [List.append_assoc, List.singleton_append]
  -- The window that the refusal leaves is the one that is followed from there on.
  have hstart := (runAll_follow empty (before ++ [⟨time, .request quota caller⟩])
    (quota.route, caller) keysDistinct_empty).1
  rw [(runAll_snoc_request quota caller before time).1] at hstart
  have hheld := (runAll_follow empty (before ++ ⟨time, .request quota caller⟩ :: between)
    (quota.route, caller) keysDistinct_empty).1
  rw [hsplit, follow_append, ← hstart, ← hsplit] at hheld
  rcases List.pairwise_append.mp horder with ⟨hrun, _, hlast⟩
  have hbetween : InOrder between := (List.pairwise_cons.mp (List.pairwise_append.mp hrun).2.1).2
  have hfollow := follow_blocked (quota.route, caller) _ (time + wait) between hblocked hbetween
    fun o ho hmine => absurd hmine (Bool.eq_false_iff.mp (hnone o ho))
  rcases hfollow with hsame | ⟨hgone, o, ho, hlate⟩
  · exact Or.inl ⟨_, hheld.trans hsame, hblocked⟩
  · have hle : o.time ≤ now :=
      hlast o (List.mem_append_right before (List.mem_cons_of_mem _ ho)) _
        (List.mem_singleton_self _)
    exact Or.inr ⟨hheld.trans hgone, Nat.le_trans hlate hle⟩

/-- A refused caller who asks again is refused for what is left of the block, and is let through
    into a new window when it is over. -/
theorem check_after_refusal (hpoints : 1 ≤ quota.points)
    (horder : InOrder (before ++ ⟨time, .request quota caller⟩ :: between
      ++ [⟨now, .request quota caller⟩]))
    (hnone : ∀ o ∈ between, o.isRequestOf (quota.route, caller) = false)
    (hrefused : ((empty.runAll before).1.check time quota caller).2 = .refused wait) :
    ((empty.runAll (before ++ ⟨time, .request quota caller⟩ :: between)).1.check now quota caller).2
      = if now < time + wait then .refused (time + wait - now) else .admitted := by
  rw [check_eq, met]
  rcases held_of_refused horder hnone hrefused with ⟨w, hheld, hblocked⟩ | ⟨hheld, hover⟩
  · rw [hheld, Option.getD_some]
    by_cases hlt : now < time + wait
    · rw [if_pos hlt, check_of_isBlocked now quota w _ hblocked hlt]
    · rw [if_neg hlt,
        check_of_block_over now quota w _ hblocked (Nat.le_of_not_lt hlt) hpoints]
  · rw [hheld, Option.getD_none, if_neg (Nat.not_lt_of_le hover), check_fresh now quota hpoints]

end Refused

/-- Who is refused is answered with a number of seconds. If they ask nothing more on that route
    until so many seconds have passed, whatever others ask and whatever is swept away meanwhile,
    they are let through from the end of the block on. Before it they are refused for what is left
    of it, and that is less than a second, and was more than a second and no whole number of them
    when they were refused. One second more is always enough. A tick of the clock may last any
    number of nanoseconds. -/
theorem retry_exact (tick : Nat) (quota : Quota) (caller : String) (before between : List Occasion)
    (time now wait : Nat) (hpoints : 1 ≤ quota.points)
    (horder : InOrder (before ++ ⟨time, .request quota caller⟩ :: between
      ++ [⟨now, .request quota caller⟩]))
    (hnone : ∀ o ∈ between, o.isRequestOf (quota.route, caller) = false)
    (hrefused : ((empty.runAll before).1.check time quota caller).2 = .refused wait) :
    (ApiError.tooManyRequests quota.message (wait * tick)).response.status = 429
      ∧ (ApiError.tooManyRequests quota.message (wait * tick)).response.headers.lookup "retry-after"
        = some (utf8 (Decimal.text (announced (wait * tick))))
      ∧ (time * tick + announced (wait * tick) * 1000000000 ≤ now * tick →
        if now < time + wait then
          ((empty.runAll (before ++ ⟨time, .request quota caller⟩ :: between)).1.check now quota
              caller).2 = .refused (time + wait - now)
            ∧ (time + wait) * tick < time * tick + (announced (wait * tick) + 1) * 1000000000
            ∧ 1000000000 < wait * tick ∧ wait * tick % 1000000000 ≠ 0
        else
          ((empty.runAll (before ++ ⟨time, .request quota caller⟩ :: between)).1.check now quota
            caller).2 = .admitted)
      ∧ (time * tick + (announced (wait * tick) + 1) * 1000000000 ≤ now * tick →
        ((empty.runAll (before ++ ⟨time, .request quota caller⟩ :: between)).1.check now quota
          caller).2 = .admitted) := by
  rw [check_after_refusal hpoints horder hnone hrefused]
  have hlong := lt_announced_succ (wait * tick)
  have hend : (time + wait) * tick = time * tick + wait * tick := Nat.add_mul time wait tick
  rcases tooManyRequests_response quota.message (wait * tick) with ⟨hstatus, hheader⟩
  refine ⟨hstatus, hheader, fun hwaited => ?_, fun hwaited => if_neg fun hearly => ?_⟩
  · by_cases hearly : now < time + wait
    · -- A clock that has moved has ticks that last.
      have htick : 0 < tick := Nat.pos_of_ne_zero fun hzero => by
        rw [hzero, Nat.mul_zero, Nat.mul_zero, Nat.mul_zero] at hwaited
        exact absurd hwaited (by decide)
      have hbefore := Nat.mul_lt_mul_of_pos_right hearly htick
      have hshort : announced (wait * tick) * 1000000000 < wait * tick := by omega
      rw [if_pos hearly, if_pos hearly]
      exact ⟨rfl, by omega, (announced_lt_iff _).mp hshort⟩
    · rw [if_neg hearly, if_neg hearly]
  · have hbefore := Nat.mul_le_mul_right tick (Nat.le_of_lt hearly)
    omega

/-- A caller who asks once too often at once. -/
def impatient (quota : Quota) : List Occasion :=
  List.replicate 6 ⟨0, .request quota "alice"⟩

/-- The quota for predictions on a clock that counts nanoseconds. -/
def fine : Quota :=
  Quota.predictions.refined 1000000

/-- Asking at the very end of the fifty-nine seconds is too early, and at sixty it is not. -/
theorem retry_exact_impatient :
    (∀ quota ∈ Quota.all, 1 ≤ (quota.refined 1000000).points)
      ∧ InOrder (impatient fine ++ ⟨600000001, .request fine "alice"⟩ :: []
        ++ [⟨60600000001, .request fine "alice"⟩])
      ∧ ((empty.runAll (impatient fine)).1.check 600000001 fine "alice").2 = .refused 59399999999
      ∧ ((empty.runAll (impatient fine ++ ⟨600000001, .request fine "alice"⟩ :: [])).1.check
          59600000001 fine "alice").2 = .refused 399999999
      ∧ ((empty.runAll (impatient fine ++ ⟨600000001, .request fine "alice"⟩ :: [])).1.check
          60600000001 fine "alice").2 = .admitted := by
  have horder : InOrder (impatient fine ++ ⟨600000001, .request fine "alice"⟩ :: []
      ++ [⟨60600000001, .request fine "alice"⟩]) := by
    unfold InOrder
    decide
  have hrefused : ((empty.runAll (impatient fine)).1.check 600000001 fine "alice").2
      = .refused 59399999999 := by decide
  rcases retry_exact 1 fine "alice" (impatient fine) [] 600000001 60600000001 59399999999
    (by decide) horder (fun _ ho => absurd ho List.not_mem_nil) hrefused with ⟨_, _, _, henough⟩
  exact ⟨by decide, horder, hrefused, by decide, henough (by decide)⟩

/-- Nor is the wait that is announced always enough: a caller who is told to wait for fifty-nine
    seconds, and does, is refused again. -/
theorem refused_as_announced :
    InOrder (impatient .predictions ++ ⟨600, .request .predictions "alice"⟩ :: []
        ++ [⟨59600, .request .predictions "alice"⟩])
      ∧ ((empty.runAll (impatient .predictions)).1.check 600 .predictions "alice").2
        = .refused 59400
      ∧ (ApiError.overQuota .predictions 59400).response.status = 429
      ∧ (ApiError.overQuota .predictions 59400).response.headers.lookup "retry-after"
        = some (utf8 (Decimal.text 59))
      ∧ 600 + 59 * 1000 ≤ 59600
      ∧ ((empty.runAll (impatient .predictions ++ [⟨600, .request .predictions "alice"⟩])).1.check
          59600 .predictions "alice").2 = .refused 400 := by
  have horder : InOrder (impatient .predictions ++ ⟨600, .request .predictions "alice"⟩ :: []
      ++ [⟨59600, .request .predictions "alice"⟩]) := by
    unfold InOrder
    decide
  exact ⟨horder, by decide, rfl, rfl, by decide, by decide⟩

end Limiter

end Gateway
