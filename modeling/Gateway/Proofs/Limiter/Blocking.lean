import Gateway.Proofs.Limiter.Allowance

/-!
# Blocks Begin and End

A request that finds no point left of its window is refused, and so is every other of its caller
until the block that begins with it is over. Two clocks run then, that of the window and that of the
block, and only the second counts: while the block lasts the window is neither replaced nor swept
away, however long it has been over, and asking again leaves it as it is (`follow_blocked`). Once
the block is over it makes no difference whether a sweep has come by. A window whose block is over
is replaced, and so is one that is missing, and the caller starts over with all points.

Nothing else is ever refused. What carries this through a run is `Traced`: the counter of the
window that is held is covered by requests that were let through in it, and a block in it goes back
to a request that found no point left. Sweeps may come as early as they like here. One that takes a
window away too soon lets its caller start over, and what is asked of the counter is asked of the
new window.

## Main definitions

* `Window.IsExhausted`: A request finds no point left.
* `Limiter.Occasion.Observes`: Requests of one key are made under one quota.
* `Limiter.Began`: When a request of a key found no point left, and a block began.
* `Limiter.Traced`: Where the window that is held comes from.

## Theorems

* `Window.follow_blocked`: While a block lasts, nothing changes the window of its caller.
* `Limiter.traced_follow`: The window that is held can be traced through every run.
* `Limiter.block_exact`: When a caller is refused, for how long, and when no more.
-/

namespace Gateway

namespace Window

/-- A request finds no point left: its caller is not blocked, and the window that it falls into is
    used up. -/
def IsExhausted (now : Nat) (quota : Quota) (w : Window) : Prop :=
  ¬ w.IsBlocked now ∧ quota.points ≤ (w.current now quota).used

/-- The window that a request leaves which found no point left. -/
def exhaust (now : Nat) (quota : Quota) (w : Window) : Window :=
  { w.current now quota with blockedUntil := some (now + quota.block) }

theorem check_of_isExhausted (now : Nat) (quota : Quota) (w : Window)
    (h : w.IsExhausted now quota) :
    w.check now quota = (w.exhaust now quota, .refused quota.block) := by
  rw [check_of_not_isBlocked now quota w h.1, if_pos h.2]
  rfl

theorem check_fresh (now : Nat) (quota : Quota) (hpoints : 0 < quota.points) :
    (fresh now).check now quota = (⟨now, 1, none⟩, .admitted) := by
  have hleft : ¬ quota.points ≤ (fresh now).used := Nat.not_le_of_lt hpoints
  rw [check_of_not_isBlocked now quota _ (not_isBlocked_fresh now now), current_fresh,
    if_neg hleft]
  rfl

/-- Once its block is over, a window gives way to a new one. -/
theorem check_of_block_over (now : Nat) (quota : Quota) (w : Window) (time : Nat)
    (hblocked : w.blockedUntil = some time) (hover : time ≤ now) (hpoints : 0 < quota.points) :
    w.check now quota = (⟨now, 1, none⟩, .admitted) := by
  have hspent : w.IsSpent now quota := by
    refine ⟨?_, fun hnone => absurd (hblocked.symm.trans hnone) (Option.some_ne_none time)⟩
    rintro ⟨t, ht, hlt⟩
    rw [hblocked, Option.some.injEq] at ht
    omega
  rw [check_of_isSpent now quota w hspent, check_fresh now quota hpoints]

/-- A request is refused because of a block or because no point is left. -/
theorem refused_cases (now : Nat) (quota : Quota) (w : Window) (wait : Nat)
    (h : (w.check now quota).2 = .refused wait) :
    (∃ time, w.blockedUntil = some time ∧ now < time ∧ wait = time - now)
      ∨ (w.IsExhausted now quota ∧ wait = quota.block) := by
  rcases check_cases now quota w with
    ⟨time, htime, hlt, hcheck⟩ | ⟨hfree, hused, hcheck⟩ | ⟨_, _, hcheck⟩
  · rw [hcheck, Verdict.refused.injEq] at h
    exact Or.inl ⟨time, htime, hlt, h.symm⟩
  · rw [hcheck, Verdict.refused.injEq] at h
    exact Or.inr ⟨⟨hfree, hused⟩, h.symm⟩
  · rw [hcheck] at h
    exact absurd h (by simp only [reduceCtorEq, not_false_eq_true])

/-- A window that is used up is the one that was held, and it is not over. -/
theorem current_of_isExhausted (now : Nat) (quota : Quota) (w : Window)
    (hpoints : 0 < quota.points) (h : w.IsExhausted now quota) :
    w.current now quota = w ∧ now - w.started < quota.window := by
  by_cases hspent : w.IsSpent now quota
  · -- Nothing of a new window is used.
    have hused := h.2
    rw [current_of_isSpent now quota w hspent, fresh] at hused
    exact absurd hused (Nat.not_le_of_lt hpoints)
  · rcases current_of_not_isSpent now quota w h.1 hspent with ⟨hsame, _, hlt⟩
    exact ⟨hsame, hlt⟩

end Window

namespace Limiter

open Window

/-- Requests of one key are made under one quota. -/
def Occasion.Observes (quota : Quota) (caller : String) (o : Occasion) : Prop :=
  match o.operation with
  | .request q c => (q.route, c) = (quota.route, caller) → q = quota
  | .sweep _ => True

instance (quota : Quota) (caller : String) : (o : Occasion) → Decidable (o.Observes quota caller)
  | ⟨_, .request q c⟩ =>
    inferInstanceAs (Decidable ((q.route, c) = (quota.route, caller) → q = quota))
  | ⟨_, .sweep _⟩ => isTrue trivial

end Limiter

namespace Window

open Limiter

/-- Without a window and without requests of the key, there is none later. -/
theorem follow_none (key : Key) (run : List Occasion)
    (h : ∀ o ∈ run, o.isRequestOf key = false) : (follow key none run).1 = none := by
  induction run with
  | nil => rfl
  | cons o run ih =>
      have hhead := h o List.mem_cons_self
      have hreact : (react key o none).1 = none := by
        rcases o with ⟨time, operation⟩
        cases operation with
        | request quota caller =>
            have hkey : ¬ (quota.route, caller) = key := fun hc =>
              Bool.false_ne_true (hhead.symm.trans (beq_iff_eq.mpr hc))
            simp only [react, if_neg hkey]
        | sweep longest => rfl
      simp only [follow, hreact]
      exact ih fun p hp => h p (List.mem_cons_of_mem o hp)

/-- While a block lasts, nothing changes the window of its caller. Only a sweep that comes when the
    block is over may have taken it away. -/
theorem follow_blocked (key : Key) (w : Window) (time : Nat) (run : List Occasion)
    (hblocked : w.blockedUntil = some time) (horder : InOrder run)
    (hrequests : ∀ o ∈ run, o.isRequestOf key = true → o.time < time) :
    (follow key (some w) run).1 = some w
      ∨ (follow key (some w) run).1 = none ∧ ∃ o ∈ run, time ≤ o.time := by
  induction run with
  | nil => exact Or.inl rfl
  | cons o run ih =>
      rw [InOrder, List.pairwise_cons] at horder
      have hrest := ih horder.2 fun p hp => hrequests p (List.mem_cons_of_mem o hp)
      have hstays : (follow key (some w) run).1 = some w
          ∨ (follow key (some w) run).1 = none ∧ ∃ p ∈ o :: run, time ≤ p.time :=
        hrest.imp_right fun ⟨hnone, p, hp, hlate⟩ => ⟨hnone, p, List.mem_cons_of_mem o hp, hlate⟩
      have hhead := hrequests o List.mem_cons_self
      rcases o with ⟨now, operation⟩
      cases operation with
      | request quota caller =>
          by_cases hkey : (quota.route, caller) = key
          · -- The caller is refused, and the window stays.
            have hcheck := check_of_isBlocked now quota w time hblocked
              (hhead (beq_iff_eq.mpr hkey))
            simp only [follow, react, if_pos hkey, Option.getD_some, hcheck]
            exact hstays
          · simp only [follow, react, if_neg hkey]
            exact hstays
      | sweep longest =>
          by_cases hlate : now < time
          · have hlive : w.isLive now longest = true :=
              (isLive_iff now longest w).mpr (Or.inr ⟨time, hblocked, hlate⟩)
            simp only [follow, react, Option.filter_some, hlive, if_true]
            exact hstays
          · cases hlive : w.isLive now longest with
            | true =>
                simp only [follow, react, Option.filter_some, hlive, if_true]
                exact hstays
            | false =>
                -- The block is over, so the key asks no more in this run.
                right
                simp only [follow, react, Option.filter_some, hlive, Bool.false_eq_true, if_false]
                refine ⟨follow_none key run fun p hp => Bool.eq_false_iff.mpr fun hmine => ?_,
                  _, List.mem_cons_self, Nat.le_of_not_lt hlate⟩
                have hbefore := hrequests p (List.mem_cons_of_mem _ hp) hmine
                have hafter := horder.1 p hp
                simp only at hafter
                omega

end Window

namespace Limiter

open Window

/-! ## Where a Window Comes From -/

/-- A request of a key found no point left at a time of a run, and a block began. -/
def Began (quota : Quota) (caller : String) (run : List Occasion) (time : Nat) : Prop :=
  ∃ before after, run = before ++ ⟨time, .request quota caller⟩ :: after
    ∧ (((empty.runAll before).1.met time (quota.route, caller))).IsExhausted time quota

theorem Began.append {quota : Quota} {caller : String} {run : List Occasion} {time : Nat}
    (h : Began quota caller run time) (more : List Occasion) :
    Began quota caller (run ++ more) time := by
  rcases h with ⟨before, after, rfl, hexhausted⟩
  exact ⟨before, after ++ more, by rw [List.append_assoc, List.cons_append], hexhausted⟩

/-- Where the window comes from that is held for a key after a run: it has started, what was used of
    it was used by requests that were let through, and a block in it began in the run. -/
structure Traced (quota : Quota) (caller : String) (run : List Occasion) (now : Nat) (w : Window) :
    Prop where
  /-- It has started. -/
  started : w.started ≤ now
  /-- Points are used by requests that are let through. -/
  covered : w.used ≤ admittedIn w.started (answersTo (quota.route, caller) (empty.runAll run).2)
  /-- A block goes back to a request that found no point left. -/
  began : ∀ t, w.blockedUntil = some t →
    ∃ time, Began quota caller run time ∧ t = time + quota.block

section OneKey

variable {quota : Quota} {caller : String} {run : List Occasion} {now : Nat}

theorem traced_fresh {time : Nat} (h : time ≤ now) : Traced quota caller run now (fresh time) where
  started := h
  covered := Nat.zero_le _
  began t ht := absurd ht (by simp only [fresh, reduceCtorEq, not_false_eq_true])

/-- What a run adds leaves a window traced that it leaves alone. -/
theorem Traced.append {w : Window} (h : Traced quota caller run now w) (o : Occasion) :
    Traced quota caller (run ++ [o]) now w where
  started := h.started
  covered := by
    have hlog := (runAll_follow empty (run ++ [o]) (quota.route, caller) keysDistinct_empty).2
    have hold := (runAll_follow empty run (quota.route, caller) keysDistinct_empty).2
    rw [follow_snoc] at hlog
    rw [hlog, admittedIn, List.countP_append, ← hold]
    exact Nat.le_trans h.covered (Nat.le_add_right _ _)
  began t ht := by
    rcases h.began t ht with ⟨time, hbegan, heq⟩
    exact ⟨time, hbegan.append [o], heq⟩

theorem traced_current {w : Window} {time : Nat} (h : Traced quota caller run now w)
    (htime : time ≤ now) : Traced quota caller run now (w.current time quota) := by
  unfold current
  split
  · exact traced_fresh htime
  · split
    · exact traced_fresh htime
    · exact h

/-- What is held for the key after a request of it, and what was answered. -/
theorem runAll_snoc_request (quota : Quota) (caller : String) (run : List Occasion) (time : Nat) :
    (empty.runAll (run ++ [⟨time, .request quota caller⟩])).1.find? (quota.route, caller)
        = some (((empty.runAll run).1.met time (quota.route, caller)).check time quota).1
      ∧ answersTo (quota.route, caller) (empty.runAll (run ++ [⟨time, .request quota caller⟩])).2
        = answersTo (quota.route, caller) (empty.runAll run).2
          ++ [⟨time, (quota.route, caller),
            (((empty.runAll run).1.met time (quota.route, caller)).check time quota).1.started,
            (((empty.runAll run).1.met time (quota.route, caller)).check time quota).2⟩] := by
  rcases runAll_follow empty (run ++ [⟨time, .request quota caller⟩]) (quota.route, caller)
    keysDistinct_empty with ⟨hheld, hlog⟩
  rcases runAll_follow empty run (quota.route, caller) keysDistinct_empty with ⟨hheld', hlog'⟩
  rw [hheld, hlog, follow_snoc, met, hheld', hlog']
  simp only [react, if_true, and_self]

/-- A request of the key leaves a window that is traced if the one that it met was. -/
theorem traced_request {time : Nat} (htime : time ≤ now)
    (h : Traced quota caller run now ((empty.runAll run).1.met time (quota.route, caller))) :
    Traced quota caller (run ++ [⟨time, .request quota caller⟩]) now
      (((empty.runAll run).1.met time (quota.route, caller)).check time quota).1 := by
  have hlog := (runAll_snoc_request quota caller run time).2
  generalize hmet : (empty.runAll run).1.met time (quota.route, caller) = w at h hlog ⊢
  have hcurrent := (traced_current h htime).append ⟨time, .request quota caller⟩
  rcases check_cases time quota w with
    ⟨t, _, _, hcheck⟩ | ⟨hfree, hused, hcheck⟩ | ⟨_, _, hcheck⟩
  · rw [hcheck]
    exact h.append _
  · -- This is the request that the block begins with.
    rw [hcheck]
    refine ⟨hcurrent.started, hcurrent.covered,
      fun t ht => ⟨time, ⟨run, [], rfl, ?_⟩, (Option.some.inj ht).symm⟩⟩
    rw [hmet]
    exact ⟨hfree, hused⟩
  · rw [hcheck] at hlog ⊢
    refine ⟨hcurrent.started, ?_, hcurrent.began⟩
    -- One more point is used, by a request that is let through.
    have hcovered := (traced_current h htime).covered
    rw [hlog, admittedIn_snoc]
    simp only [Answered.isAdmitted, beq_self_eq_true, Bool.and_self, if_true]
    exact Nat.succ_le_succ hcovered

/-- The window that is held for a key can be traced through every run. -/
theorem traced_follow (hobserves : ∀ o ∈ run, o.Observes quota caller)
    (hnow : ∀ o ∈ run, o.time ≤ now) :
    ∀ w, (empty.runAll run).1.find? (quota.route, caller) = some w
      → Traced quota caller run now w := by
  induction run using List.reverseRecOn with
  | nil =>
      intro w hw
      exact absurd hw.symm (Option.some_ne_none w)
  | append_singleton run o ih =>
      intro w hw
      have hbefore := ih (fun p hp => hobserves p (List.mem_append_left _ hp))
        fun p hp => hnow p (List.mem_append_left _ hp)
      have hmem : o ∈ run ++ [o] := List.mem_append_right run (List.mem_singleton_self o)
      have hlast := hobserves o hmem
      have htime := hnow o hmem
      have hheld := (runAll_follow empty run (quota.route, caller) keysDistinct_empty).1
      have hfollow := (runAll_follow empty (run ++ [o]) (quota.route, caller) keysDistinct_empty).1
      rw [follow_snoc, ← hheld] at hfollow
      rcases o with ⟨time, operation⟩
      cases operation with
      | sweep longest =>
          rw [hfollow] at hw
          exact (hbefore w (Option.filter_eq_some_iff.mp hw).1).append _
      | request q c =>
          by_cases hkey : (q.route, c) = (quota.route, caller)
          · -- Requests of the key are made under its quota.
            obtain rfl : q = quota := hlast hkey
            obtain rfl : c = caller := (Prod.mk.injEq _ _ _ _).mp hkey |>.2
            have hmet : Traced q c run now ((empty.runAll run).1.met time (q.route, c)) := by
              rw [met]
              cases hfound : (empty.runAll run).1.find? (q.route, c) with
              | some v => exact hbefore v hfound
              | none => exact traced_fresh htime
            rw [(runAll_snoc_request _ _ _ time).1, Option.some.injEq] at hw
            exact hw ▸ traced_request htime hmet
          · simp only [react, if_neg hkey] at hfollow
            exact (hbefore w (hfollow.symm.trans hw)).append _

theorem traced_met (hobserves : ∀ o ∈ run, o.Observes quota caller)
    (hnow : ∀ o ∈ run, o.time ≤ now) :
    Traced quota caller run now ((empty.runAll run).1.met now (quota.route, caller)) := by
  rw [met]
  cases hfound : (empty.runAll run).1.find? (quota.route, caller) with
  | some w => exact traced_follow hobserves hnow w hfound
  | none => exact traced_fresh (Nat.le_refl now)

/-- After a block began, its caller holds the window that began it, or a sweep has come since the
    block was over and they hold none. -/
theorem held_of_began {time : Nat} (hbegan : Began quota caller run time)
    (horder : InOrder (run ++ [⟨now, .request quota caller⟩]))
    (hfirst : ∀ o ∈ run, o.isRequestOf (quota.route, caller) = true →
      o.time < time + quota.block ∨ now < time + quota.block) :
    time ≤ now
      ∧ ((∃ w, (empty.runAll run).1.find? (quota.route, caller) = some w
          ∧ w.blockedUntil = some (time + quota.block))
        ∨ (empty.runAll run).1.find? (quota.route, caller) = none ∧ time + quota.block ≤ now) := by
  rcases hbegan with ⟨before, between, rfl, hexhausted⟩
  have hsplit : before ++ ⟨time, .request quota caller⟩ :: between
      = before ++ [⟨time, .request quota caller⟩] ++ between := by
    rw [List.append_assoc, List.singleton_append]
  rcases List.pairwise_append.mp horder with ⟨hrun, _, hlast⟩
  have hnow : ∀ o ∈ before ++ ⟨time, .request quota caller⟩ :: between, o.time ≤ now :=
    fun o ho => hlast o ho _ (List.mem_singleton_self _)
  refine ⟨hnow _ (List.mem_append_right before List.mem_cons_self), ?_⟩
  -- The block begins, and from there on only the requests and sweeps in between matter.
  have hbegins := (runAll_snoc_request quota caller before time).1
  have hstart := (runAll_follow empty (before ++ [⟨time, .request quota caller⟩])
    (quota.route, caller) keysDistinct_empty).1
  rw [hbegins, check_of_isExhausted time quota _ hexhausted] at hstart
  have hheld := (runAll_follow empty (before ++ ⟨time, .request quota caller⟩ :: between)
    (quota.route, caller) keysDistinct_empty).1
  rw [hsplit, follow_append, ← hstart, ← hsplit] at hheld
  have hbetween : InOrder between := (List.pairwise_cons.mp (List.pairwise_append.mp hrun).2.1).2
  have hmem : ∀ o ∈ between, o ∈ before ++ ⟨time, .request quota caller⟩ :: between :=
    fun o ho => List.mem_append_right before (List.mem_cons_of_mem _ ho)
  have hfollow := follow_blocked (quota.route, caller)
    (exhaust time quota ((empty.runAll before).1.met time (quota.route, caller)))
    (time + quota.block) between rfl hbetween fun o ho hmine => by
      have hle := hnow o (hmem o ho)
      have hlt := hfirst o (hmem o ho) hmine
      omega
  rcases hfollow with hsame | ⟨hnone, o, ho, hlate⟩
  · exact Or.inl ⟨_, hheld.trans hsame, rfl⟩
  · exact Or.inr ⟨hheld.trans hnone, Nat.le_trans hlate (hnow o (hmem o ho))⟩

/-- A request that finds no point left, and is not in a block, begins one: it is refused for the
    whole of it. While the block lasts every request of its caller is refused for what is left of
    it, and the block ends when it would have ended without them, whatever sweeps come by and
    however long the window has been over. The first request after that is let through, and a new
    window starts with it. And nobody is refused but in a block, or when as many requests as the
    quota allows were let through in the window at hand. -/
theorem block_exact (quota : Quota) (caller : String) (run : List Occasion) (now : Nat)
    (hpoints : 1 ≤ quota.points) (horder : InOrder (run ++ [⟨now, .request quota caller⟩]))
    (hobserves : ∀ o ∈ run, o.Observes quota caller) :
    (((empty.runAll run).1.met now (quota.route, caller)).IsExhausted now quota →
        ((empty.runAll run).1.check now quota caller).2 = .refused quota.block)
      ∧ (∀ time, Began quota caller run time → now < time + quota.block →
        ((empty.runAll run).1.check now quota caller).2 = .refused (time + quota.block - now)
          ∧ 0 < time + quota.block - now ∧ time + quota.block - now ≤ quota.block
          ∧ ∃ w, ((empty.runAll run).1.check now quota caller).1.find? (quota.route, caller) = some w
            ∧ w.blockedUntil = some (time + quota.block))
      ∧ (∀ time, Began quota caller run time → time + quota.block ≤ now →
        (∀ o ∈ run, o.isRequestOf (quota.route, caller) = true → o.time < time + quota.block) →
          ((empty.runAll run).1.check now quota caller).2 = .admitted
          ∧ ((empty.runAll run).1.check now quota caller).1.find? (quota.route, caller)
            = some ⟨now, 1, none⟩)
      ∧ ∀ wait, ((empty.runAll run).1.check now quota caller).2 = .refused wait →
        (∃ time, Began quota caller run time ∧ time ≤ now ∧ now < time + quota.block)
          ∨ ∃ start, start ≤ now ∧ now < start + quota.window
            ∧ quota.points ≤ admittedIn start
              (answersTo (quota.route, caller) (empty.runAll run).2) := by
  refine ⟨fun hexhausted => ?_, fun time hbegan hlt => ?_, fun time hbegan hover hfirst => ?_,
    fun wait hrefused => ?_⟩
  · rw [check_eq]
    exact congrArg Prod.snd (check_of_isExhausted now quota _ hexhausted)
  · rcases held_of_began hbegan horder fun _ _ _ => Or.inr hlt with
      ⟨hle, ⟨w, hheld, hblocked⟩ | ⟨_, hover⟩⟩
    · have hcheck := check_of_isBlocked now quota w _ hblocked hlt
      rw [find?_check_self, check_eq, met, hheld, Option.getD_some, hcheck]
      exact ⟨rfl, by omega, by omega, w, rfl, hblocked⟩
    · omega
  · have hadmitted : ((empty.runAll run).1.met now (quota.route, caller)).check now quota
        = (⟨now, 1, none⟩, .admitted) := by
      rw [met]
      rcases held_of_began hbegan horder fun o ho hmine => Or.inl (hfirst o ho hmine) with
        ⟨_, ⟨w, hheld, hblocked⟩ | ⟨hheld, _⟩⟩
      · rw [hheld]
        exact check_of_block_over now quota w _ hblocked hover hpoints
      · rw [hheld]
        exact check_fresh now quota hpoints
    rw [find?_check_self, check_eq, hadmitted]
    exact ⟨rfl, rfl⟩
  · have hnow : ∀ o ∈ run, o.time ≤ now := fun o ho =>
      (List.pairwise_append.mp horder).2.2 o ho _ (List.mem_singleton_self _)
    have htraced := traced_met hobserves hnow
    have hrefused' : (((empty.runAll run).1.met now (quota.route, caller)).check now quota).2
        = .refused wait := hrefused
    rcases refused_cases now quota _ wait hrefused' with ⟨t, hblocked, hlt, _⟩ | ⟨hexhausted, _⟩
    · rcases htraced.began t hblocked with ⟨time, hbegan, rfl⟩
      refine Or.inl ⟨time, hbegan, ?_, hlt⟩
      exact (held_of_began hbegan horder fun _ _ _ => Or.inr hlt).1
    · rcases current_of_isExhausted now quota _ hpoints hexhausted with ⟨hsame, hwithin⟩
      have hused := hexhausted.2
      rw [hsame] at hused
      have hstarted := htraced.started
      exact Or.inr ⟨_, hstarted, by omega, Nat.le_trans hused htraced.covered⟩

end OneKey

/-- A caller who asks once too often ten seconds before their window is over, and a sweep after
    that which takes away whatever it may. -/
def overdrawn : List Occasion :=
  List.replicate 5 ⟨0, .request .predictions "alice"⟩
    ++ [⟨50000, .request .predictions "alice"⟩, ⟨61000, .sweep 1⟩]

/-- The window would have been over at sixty seconds. The block is over at a hundred and ten. -/
theorem block_exact_overdrawn :
    InOrder (overdrawn ++ [⟨65000, .request .predictions "alice"⟩])
      ∧ InOrder (overdrawn ++ [⟨110000, .request .predictions "alice"⟩])
      ∧ (∀ o ∈ overdrawn, o.Observes .predictions "alice")
      ∧ Began .predictions "alice" overdrawn 50000
      ∧ ((empty.runAll overdrawn).1.check 65000 .predictions "alice").2 = .refused 45000
      ∧ ((empty.runAll overdrawn).1.check 110000 .predictions "alice").2 = .admitted := by
  have hobserves : ∀ o ∈ overdrawn, o.Observes .predictions "alice" := by decide
  have hearly : InOrder (overdrawn ++ [⟨65000, .request .predictions "alice"⟩]) := by
    unfold InOrder
    decide
  have hlate : InOrder (overdrawn ++ [⟨110000, .request .predictions "alice"⟩]) := by
    unfold InOrder
    decide
  have hbegan : Began .predictions "alice" overdrawn 50000 :=
    ⟨List.replicate 5 ⟨0, .request .predictions "alice"⟩, [⟨61000, .sweep 1⟩], rfl,
      fun ⟨t, ht, _⟩ => absurd ht (Option.some_ne_none t).symm, by decide⟩
  rcases block_exact .predictions "alice" overdrawn 65000 (by decide) hearly hobserves with
    ⟨_, hlasts, _, _⟩
  rcases block_exact .predictions "alice" overdrawn 110000 (by decide) hlate hobserves with
    ⟨_, _, hends, _⟩
  exact ⟨hearly, hlate, hobserves, hbegan, (hlasts 50000 hbegan (by decide)).1,
    (hends 50000 hbegan (by decide) (by decide)).1⟩

end Limiter

end Gateway
