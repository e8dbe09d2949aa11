import Gateway.Limiter
import Mathlib.Tactic.ByContra

/-!
# Windows One Caller at a Time

A limiter keeps the windows of all callers in one list. A request reads and writes the window of
its own key, and a sweep takes windows away, so what an operation does is said here for the window
of one key, whichever key that is. `find?` is that view, and it is faithful because no key is in
the list twice (`KeysDistinct`): a sweep that took the first of two away would bring an older one
to light.

What a request does to the window of its caller has two parts. First the window that it falls into
is settled: a window whose block is over, or which is over itself, is replaced by one that starts
now (`Window.current`). Then a point is spent, or the caller is blocked. Only while a block lasts
is the window left as it is.

A window that the next request would replace anyway is *spent*. It may as well be missing, and the
windows that a sweep takes away are spent for every quota whose window the sweep was told to wait
for (`isSpent_of_not_isLive`).

## Main definitions

* `Window.current`: The window that a request falls into.
* `Window.IsSpent`: A window that the next request replaces.
* `Limiter.KeysDistinct`: No key has two windows.

## Theorems

* `Window.check_cases`: What a request does to the window of its caller.
* `Window.check_of_isSpent`: A spent window makes no difference to a request.
* `Limiter.find?_check_self`, `Limiter.find?_check_ne`: A request concerns its own key only.
* `Limiter.find?_sweep`: A sweep keeps the windows that are live.
-/

namespace Gateway

namespace Window

/-- The window that a request falls into, if its caller is not blocked: the one there is, or one
    that starts now in place of one that is over or whose block is over. -/
def current (now : Nat) (quota : Quota) (w : Window) : Window :=
  match w.blockedUntil with
  | some _ => fresh now
  | none => if quota.window ≤ now - w.started then fresh now else w

/-- Until when a caller is refused lies ahead. -/
def IsBlocked (now : Nat) (w : Window) : Prop :=
  ∃ t, w.blockedUntil = some t ∧ now < t

/-- Nothing of a window counts any more for a request under a quota. -/
def IsSpent (now : Nat) (quota : Quota) (w : Window) : Prop :=
  ¬ w.IsBlocked now ∧ (w.blockedUntil = none → quota.window ≤ now - w.started)

theorem current_fresh (now : Nat) (quota : Quota) : (fresh now).current now quota = fresh now :=
  ite_self (fresh now)

theorem check_of_isBlocked (now : Nat) (quota : Quota) (w : Window) (t : Nat)
    (hblock : w.blockedUntil = some t) (ht : now < t) :
    w.check now quota = (w, .refused (t - now)) := by
  unfold check
  simp only [hblock, if_pos ht]

/-- Without a block a request spends a point of the window that it falls into, or is refused and
    blocked if there is none left. -/
theorem check_of_not_isBlocked (now : Nat) (quota : Quota) (w : Window)
    (h : ¬ w.IsBlocked now) :
    w.check now quota
      = if quota.points ≤ (w.current now quota).used then
          ({ w.current now quota with blockedUntil := some (now + quota.block) },
            .refused quota.block)
        else
          ({ w.current now quota with used := (w.current now quota).used + 1 }, .admitted) := by
  unfold check current
  cases hblock : w.blockedUntil with
  | some t =>
      have ht : ¬ now < t := fun hlt => h ⟨t, hblock, hlt⟩
      -- The window that starts now is not over, or starts now once more.
      simp only [if_neg ht, ite_self]
  | none => rfl

/-- The three things that a request may do. -/
theorem check_cases (now : Nat) (quota : Quota) (w : Window) :
    (∃ t, w.blockedUntil = some t ∧ now < t ∧ w.check now quota = (w, .refused (t - now)))
      ∨ (¬ w.IsBlocked now ∧ quota.points ≤ (w.current now quota).used
        ∧ w.check now quota
          = ({ w.current now quota with blockedUntil := some (now + quota.block) },
            .refused quota.block))
      ∨ (¬ w.IsBlocked now ∧ (w.current now quota).used < quota.points
        ∧ w.check now quota
          = ({ w.current now quota with used := (w.current now quota).used + 1 }, .admitted)) := by
  by_cases hblocked : w.IsBlocked now
  · rcases hblocked with ⟨t, ht, hlt⟩
    exact Or.inl ⟨t, ht, hlt, check_of_isBlocked now quota w t ht hlt⟩
  · right
    have hcheck := check_of_not_isBlocked now quota w hblocked
    by_cases hpoints : quota.points ≤ (w.current now quota).used
    · rw [if_pos hpoints] at hcheck
      exact Or.inl ⟨hblocked, hpoints, hcheck⟩
    · rw [if_neg hpoints] at hcheck
      exact Or.inr ⟨hblocked, by omega, hcheck⟩

theorem not_isBlocked_fresh (now time : Nat) : ¬ (fresh now).IsBlocked time := by
  rintro ⟨t, ht, _⟩
  exact absurd ht (by simp only [fresh, reduceCtorEq, not_false_eq_true])

theorem current_of_isSpent (now : Nat) (quota : Quota) (w : Window) (h : w.IsSpent now quota) :
    w.current now quota = fresh now := by
  unfold current
  cases hblock : w.blockedUntil with
  | some t => rfl
  | none => simp only [if_pos (h.2 hblock)]

/-- A window that is neither blocked nor spent is the one that requests fall into. -/
theorem current_of_not_isSpent (now : Nat) (quota : Quota) (w : Window) (hblock : ¬ w.IsBlocked now)
    (hspent : ¬ w.IsSpent now quota) :
    w.current now quota = w ∧ w.blockedUntil = none ∧ now - w.started < quota.window := by
  have hnone : w.blockedUntil = none ∧ now - w.started < quota.window := by
    by_contra hc
    refine hspent ⟨hblock, fun hnone => ?_⟩
    by_contra hlt
    exact hc ⟨hnone, by omega⟩
  refine ⟨?_, hnone⟩
  have hlt : ¬ quota.window ≤ now - w.started := by omega
  unfold current
  simp only [hnone.1, if_neg hlt]

/-- A spent window makes no difference to a request: there might as well be none. -/
theorem check_of_isSpent (now : Nat) (quota : Quota) (w : Window) (h : w.IsSpent now quota) :
    w.check now quota = (fresh now).check now quota := by
  rw [check_of_not_isBlocked now quota w h.1,
    check_of_not_isBlocked now quota (fresh now) (not_isBlocked_fresh now now),
    current_of_isSpent now quota w h, current_fresh]

/-- What is spent stays spent. -/
theorem IsSpent.mono {now later : Nat} {quota : Quota} {w : Window} (h : w.IsSpent now quota)
    (hle : now ≤ later) : w.IsSpent later quota := by
  refine ⟨?_, fun hnone => ?_⟩
  · rintro ⟨t, ht, hlt⟩
    exact h.1 ⟨t, ht, by omega⟩
  · have hover := h.2 hnone
    omega

theorem isLive_iff (now longest : Nat) (w : Window) :
    w.isLive now longest = true ↔ now - w.started < longest ∨ w.IsBlocked now := by
  unfold isLive IsBlocked
  cases w.blockedUntil with
  | none => simp
  | some t => simp

theorem isSpent_of_not_isLive (now longest : Nat) (quota : Quota) (w : Window)
    (hlive : ¬ w.isLive now longest = true) (hlongest : quota.window ≤ longest) :
    w.IsSpent now quota := by
  rw [isLive_iff, not_or] at hlive
  exact ⟨hlive.2, fun _ => by omega⟩

end Window

namespace Limiter

/-- No key has two windows. -/
def KeysDistinct (l : Limiter) : Prop :=
  (l.windows.map Prod.fst).Nodup

section Put

variable (key other : Key) (w : Window) (ws : List (Key × Window))

theorem find?_put_self : (put key w ws).find? (fun e => e.1 == key) = some (key, w) := by
  induction ws with
  | nil => simp [put]
  | cons e ws ih =>
      by_cases he : e.1 = key
      · simp [put, he]
      · simp [put, he, ih]

theorem find?_put_ne (h : other ≠ key) :
    (put key w ws).find? (fun e => e.1 == other) = ws.find? fun e => e.1 == other := by
  induction ws with
  | nil => simp [put, Ne.symm h]
  | cons e ws ih =>
      by_cases he : e.1 = key
      · have hne : ¬ e.1 = other := fun hc => h (hc.symm.trans he)
        simp [put, he, Ne.symm h]
      · simp only [put, if_neg he, List.find?_cons, ih]

theorem mem_keys_put :
    other ∈ (put key w ws).map Prod.fst ↔ other = key ∨ other ∈ ws.map Prod.fst := by
  induction ws with
  | nil => simp [put]
  | cons e ws ih =>
      by_cases he : e.1 = key
      · simp [put, he]
      · simp only [put, if_neg he, List.map_cons, List.mem_cons, ih]
        exact or_left_comm

theorem nodup_keys_put (h : (ws.map Prod.fst).Nodup) : ((put key w ws).map Prod.fst).Nodup := by
  induction ws with
  | nil => simp [put]
  | cons e ws ih =>
      rw [List.map_cons, List.nodup_cons] at h
      by_cases he : e.1 = key
      · -- The key stands where it stood.
        rw [he] at h
        simpa [put, he] using h
      · have hput : put key w (e :: ws) = e :: put key w ws := by simp only [put, if_neg he]
        rw [hput, List.map_cons, List.nodup_cons, mem_keys_put]
        refine ⟨?_, ih h.2⟩
        rintro (hc | hc)
        · exact he hc
        · exact h.1 hc

end Put

/-- The window that a request of a caller meets: theirs, or else one that starts now. -/
def met (l : Limiter) (now : Nat) (key : Key) : Window :=
  (l.find? key).getD (.fresh now)

theorem check_eq (l : Limiter) (now : Nat) (quota : Quota) (caller : String) :
    l.check now quota caller
      = (⟨put (quota.route, caller) ((l.met now (quota.route, caller)).check now quota).1 l.windows⟩,
        ((l.met now (quota.route, caller)).check now quota).2) := rfl

theorem find?_check_self (l : Limiter) (now : Nat) (quota : Quota) (caller : String) :
    (l.check now quota caller).1.find? (quota.route, caller)
      = some ((l.met now (quota.route, caller)).check now quota).1 := by
  rw [check_eq, find?, find?_put_self, Option.map_some]

theorem find?_check_ne (l : Limiter) (now : Nat) (quota : Quota) (caller : String) (key : Key)
    (h : key ≠ (quota.route, caller)) : (l.check now quota caller).1.find? key = l.find? key := by
  rw [check_eq, find?, find?_put_ne _ _ _ _ h, find?]

/-- A request that is admitted had a point left of the window that it falls into, and spends it. -/
theorem find?_check_of_admitted (l : Limiter) (now : Nat) (quota : Quota) (caller : String)
    (h : (l.check now quota caller).2 = .admitted) :
    ((l.met now (quota.route, caller)).current now quota).used < quota.points
      ∧ (l.check now quota caller).1.find? (quota.route, caller)
        = some { (l.met now (quota.route, caller)).current now quota with
            used := ((l.met now (quota.route, caller)).current now quota).used + 1 } := by
  have hverdict : ((l.met now (quota.route, caller)).check now quota).2 = .admitted := h
  rw [find?_check_self]
  rcases Window.check_cases now quota (l.met now (quota.route, caller)) with
    ⟨t, _, _, hcheck⟩ | ⟨_, _, hcheck⟩ | ⟨_, hused, hcheck⟩
  · rw [hcheck] at hverdict
    exact absurd hverdict (by simp only [reduceCtorEq, not_false_eq_true])
  · rw [hcheck] at hverdict
    exact absurd hverdict (by simp only [reduceCtorEq, not_false_eq_true])
  · exact ⟨hused, by rw [hcheck]⟩

theorem keysDistinct_check (l : Limiter) (now : Nat) (quota : Quota) (caller : String)
    (h : l.KeysDistinct) : (l.check now quota caller).1.KeysDistinct :=
  nodup_keys_put _ _ _ h

theorem keysDistinct_sweep (l : Limiter) (now longest : Nat) (h : l.KeysDistinct) :
    (l.sweep now longest).1.KeysDistinct :=
  h.sublist (List.filter_sublist.map Prod.fst)

theorem find?_filter_of_nodup (p : Window → Bool) (key : Key) (ws : List (Key × Window))
    (h : (ws.map Prod.fst).Nodup) :
    ((ws.filter fun e => p e.2).find? fun e => e.1 == key).map Prod.snd
      = ((ws.find? fun e => e.1 == key).map Prod.snd).filter p := by
  induction ws with
  | nil => rfl
  | cons e ws ih =>
      rw [List.map_cons, List.nodup_cons] at h
      by_cases he : e.1 = key
      · have hhead : (e.1 == key) = true := beq_iff_eq.mpr he
        cases hp : p e.2 with
        | true => simp only [List.filter_cons, hp, if_true, List.find?_cons, hhead, Option.map_some,
            Option.filter_some]
        | false =>
            -- No other window of the key is brought to light.
            have hnone : (ws.filter fun e => p e.2).find? (fun e => e.1 == key) = none := by
              rw [List.find?_eq_none]
              intro x hx hkey
              have hmem : x.1 ∈ ws.map Prod.fst := List.mem_map_of_mem (List.mem_filter.mp hx).1
              rw [beq_iff_eq.mp hkey, ← he] at hmem
              exact h.1 hmem
            simp only [List.filter_cons, hp, Bool.false_eq_true, if_false, hnone, List.find?_cons,
              hhead, Option.map_some, Option.map_none, Option.filter_some]
      · have hhead : (e.1 == key) = false := beq_eq_false_iff_ne.mpr he
        cases hp : p e.2 with
        | true => simp only [List.filter_cons, hp, if_true, List.find?_cons, hhead, ih h.2]
        | false =>
            simp only [List.filter_cons, hp, Bool.false_eq_true, if_false, List.find?_cons, hhead,
              ih h.2]

theorem find?_sweep (l : Limiter) (now longest : Nat) (key : Key) (h : l.KeysDistinct) :
    (l.sweep now longest).1.find? key = (l.find? key).filter (Window.isLive now longest) :=
  find?_filter_of_nodup (Window.isLive now longest) key l.windows h

end Limiter

end Gateway
