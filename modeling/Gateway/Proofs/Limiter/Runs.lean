import Gateway.Proofs.Limiter.Windows

/-!
# Runs of a Limiter

A run is a list of requests and sweeps, each with its time, over any number of callers. What
becomes of it is a limiter and a log, in which every request stands with the answer it got and with
the start of the window that it fell into. The start is what tells one window of a caller from the
next, whether the one before it was over, was given up with its block or was swept away.

What concerns one caller on one route can be followed without the others: each operation of the run
does something to the window of the key or leaves it alone, and only the requests of the key add to
its log (`Window.react`). `runAll_follow` says that following the key through a run gives its
window and its part of the log, so a statement about one key needs no limiter from there on.

## Main definitions

* `Limiter.Occasion`: A request or a sweep, with its time.
* `Limiter.Answered`: A request as it was answered.
* `Limiter.runAll`: What becomes of a run.
* `Window.react`, `Window.follow`: What becomes of the window of one key.

## Theorems

* `Limiter.runAll_follow`: A run treats each key as if it were followed alone.
-/

namespace Gateway

namespace Limiter

/-- What is done to a limiter. -/
inductive Operation where
  /-- A caller makes a request. -/
  | request (quota : Quota) (caller : String)
  /-- Windows are swept away. -/
  | sweep (longest : Nat)

/-- Something is done at a time. -/
structure Occasion where
  /-- The time, in milliseconds. -/
  time : Nat
  /-- What is done. -/
  operation : Operation

/-- A request as it was answered. -/
structure Answered where
  /-- When it was made. -/
  time : Nat
  /-- Whose request it was, on which route. -/
  key : Key
  /-- When the window that it fell into started. -/
  started : Nat
  /-- The answer. -/
  verdict : Verdict
  deriving DecidableEq

/-- Whether a request was let through. -/
def Answered.isAdmitted (a : Answered) : Bool :=
  a.verdict == .admitted

/-- Whether something is a request of a key. -/
def Occasion.isRequestOf (key : Key) (o : Occasion) : Bool :=
  match o.operation with
  | .request quota caller => (quota.route, caller) == key
  | .sweep _ => false

/-- What an occasion does to a limiter, and the request that it answers, if it is one. -/
def perform (l : Limiter) (o : Occasion) : Limiter × List Answered :=
  match o.operation with
  | .request quota caller =>
    let key : Key := (quota.route, caller)
    let (after, verdict) := l.check o.time quota caller
    (after, [⟨o.time, key, (after.met o.time key).started, verdict⟩])
  | .sweep longest => ((l.sweep o.time longest).1, [])

/-- A limiter through a run: what becomes of it, and all requests as they were answered. -/
def runAll : Limiter → List Occasion → Limiter × List Answered
  | l, [] => (l, [])
  | l, o :: rest =>
    let (l, now) := l.perform o
    let (l, later) := runAll l rest
    (l, now ++ later)

/-- The part of a log that is about one key. -/
def answersTo (key : Key) (log : List Answered) : List Answered :=
  log.filter fun a => a.key == key

/-- The times of a run do not go back. -/
def InOrder (run : List Occasion) : Prop :=
  run.Pairwise fun a b => a.time ≤ b.time

end Limiter

namespace Window

open Limiter

/-- What an occasion does to the window of one key, and what is answered to the key. -/
def react (key : Key) (o : Occasion) (held : Option Window) : Option Window × List Answered :=
  match o.operation with
  | .request quota caller =>
    if (quota.route, caller) = key then
      let (w, verdict) := (held.getD (fresh o.time)).check o.time quota
      (some w, [⟨o.time, key, w.started, verdict⟩])
    else (held, [])
  | .sweep longest => (held.filter (isLive o.time longest), [])

/-- The window of one key through a run, and what is answered to the key. -/
def follow (key : Key) : Option Window → List Occasion → Option Window × List Answered
  | held, [] => (held, [])
  | held, o :: rest =>
    let (held, now) := react key o held
    let (held, later) := follow key held rest
    (held, now ++ later)

theorem follow_append (key : Key) (held : Option Window) (run more : List Occasion) :
    follow key held (run ++ more)
      = ((follow key (follow key held run).1 more).1,
        (follow key held run).2 ++ (follow key (follow key held run).1 more).2) := by
  induction run generalizing held with
  | nil => rfl
  | cons o run ih => simp only [List.cons_append, follow, ih, List.append_assoc]

theorem follow_snoc (key : Key) (held : Option Window) (run : List Occasion) (o : Occasion) :
    follow key held (run ++ [o])
      = ((react key o (follow key held run).1).1,
        (follow key held run).2 ++ (react key o (follow key held run).1).2) := by
  rw [follow_append]
  simp only [follow, List.append_nil]

end Window

namespace Limiter

open Window

theorem keysDistinct_perform (l : Limiter) (o : Occasion) (h : l.KeysDistinct) :
    (l.perform o).1.KeysDistinct := by
  rcases o with ⟨now, operation⟩
  cases operation with
  | request quota caller => exact keysDistinct_check l now quota caller h
  | sweep longest => exact keysDistinct_sweep l now longest h

theorem perform_react (l : Limiter) (o : Occasion) (key : Key) (h : l.KeysDistinct) :
    (l.perform o).1.find? key = (react key o (l.find? key)).1
      ∧ answersTo key (l.perform o).2 = (react key o (l.find? key)).2 := by
  rcases o with ⟨now, operation⟩
  cases operation with
  | request quota caller =>
      have hlog : (l.perform ⟨now, .request quota caller⟩).2
          = [⟨now, (quota.route, caller),
              ((l.met now (quota.route, caller)).check now quota).1.started,
              ((l.met now (quota.route, caller)).check now quota).2⟩] := by
        simp only [perform, met, find?_check_self, Option.getD_some]
        rfl
      by_cases hkey : (quota.route, caller) = key
      · -- The window in the limiter after the request is the one that it left.
        subst hkey
        refine ⟨?_, ?_⟩
        · simp only [perform, react, if_true, find?_check_self]
          rfl
        · rw [hlog]
          simp only [answersTo, List.filter, beq_self_eq_true, react, if_true]
          rfl
      · refine ⟨?_, ?_⟩
        · simp only [perform, react, if_neg hkey]
          exact find?_check_ne l now quota caller key (Ne.symm hkey)
        · rw [hlog]
          simp only [answersTo, List.filter, beq_eq_false_iff_ne.mpr hkey, react, if_neg hkey]
  | sweep longest => exact ⟨find?_sweep l now longest key h, rfl⟩

/-- A run treats each key as if it were followed alone. -/
theorem runAll_follow (l : Limiter) (run : List Occasion) (key : Key) (h : l.KeysDistinct) :
    (l.runAll run).1.find? key = (follow key (l.find? key) run).1
      ∧ answersTo key (l.runAll run).2 = (follow key (l.find? key) run).2 := by
  induction run generalizing l with
  | nil => exact ⟨rfl, rfl⟩
  | cons o run ih =>
      rcases perform_react l o key h with ⟨hheld, hlog⟩
      rcases ih (l.perform o).1 (keysDistinct_perform l o h) with ⟨ihheld, ihlog⟩
      -- From here on the limiter matters through the window of the key alone.
      rw [hheld] at ihheld ihlog
      refine ⟨?_, ?_⟩
      · simp only [runAll, follow]
        exact ihheld
      · simp only [runAll, follow, answersTo, List.filter_append]
        rw [← ihlog, ← hlog]
        rfl

theorem keysDistinct_empty : empty.KeysDistinct :=
  List.nodup_nil

theorem find?_empty (key : Key) : empty.find? key = none := rfl

end Limiter

end Gateway
