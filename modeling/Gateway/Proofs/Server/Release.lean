import Gateway.Proofs.Server.Turns

/-!
# The Backends Are Released

A server that serves ends in one of several ways. Its listener may end by itself, because somebody
else triggered the shutdown or because it broke down. Or it is told to stop, and then the requests
under way come to their end in time or do not. All ways lead to the same release of the backends,
and it is taken once: the clients are closed one after another, the last registered one first, and
one that fails to close does not keep the others from it.

The server passes to its last stage once, and only this passing makes the release due
(`next_closeClients`). So in every world the release is in one of three states (`Release`). It is
awaited, or it is due, or it has begun, and then the clients that are closed and those that are yet
to be add up to all there are, backwards. In the last stage, moreover, the server does not wait for
an idle gateway any more: it has, or the listener had ended before (`Fits`).

That the server comes to its end is another matter, since it waits for others: for somebody to stop
it, for the requests under way, for the listener. Each turn of its own takes it closer to the end,
and no turn of others takes it back (`own_left`, `around_left`). So it returns if it is not kept
waiting for ever, and once the release is due it needs nobody for that.

## Main definitions

* `Release`, `Fits`, `Inv`: What holds of the release, of each stage, and in every reachable world.
* `World.left`: How many turns the server has yet to take, at most.
* `Attended`: The server is not kept waiting for ever.

## Theorems

* `run_closeClients`: A server releases the backends once if it comes to its end, and else never.
* `inv_own`, `inv_of_reaches`: The invariant is kept by each turn of the server and by every run.
* `returns`: A server that is not kept waiting for ever returns.
* `can_return`: From every world the server can come to its end.
* `backends_released`: However a server ends, it has closed every client once.
-/

namespace Gateway

namespace Server.Stage

/-- How many stages there are to come, at most. -/
def ahead : Stage → Nat
  | .idle _ => 4
  | .serving => 3
  | .draining => 2
  | .finishing => 1
  | .failed | .ended => 0

/-- Passing to the last stage is what makes the release due, and nothing else does. -/
theorem next_closeClients (s : Stage) (o : Occurrence) (h : s ≠ .ended) :
    (s.next o).2.count .closeClients = if (s.next o).1 = .ended then 1 else 0 := by
  cases s with
  | idle bound => cases bound <;> cases o <;> rfl
  | ended => exact absurd rfl h
  | failed | serving | draining | finishing => cases o <;> rfl

/-- What is done in passing to another stage is three things at most. -/
theorem next_length (s : Stage) (o : Occurrence) : (s.next o).2.length ≤ 3 := by
  cases s with
  | idle bound => cases bound <;> cases o <;> decide
  | failed | serving | draining | finishing | ended => cases o <;> decide

end Server.Stage

namespace Server

theorem run_ended (os : List Occurrence) : run .ended os = (.ended, []) := by
  induction os with
  | nil => rfl
  | cons o os ih =>
      unfold run
      cases o <;> simp [Stage.next, ih]

theorem run_cons (s : Stage) (o : Occurrence) (os : List Occurrence) :
    run s (o :: os) = ((run (s.next o).1 os).1, (s.next o).2 ++ (run (s.next o).1 os).2) := rfl

/-- Whatever occurs to a server, it releases the backends once if it comes to its end, and else
    never. -/
theorem run_closeClients (s : Stage) (os : List Occurrence) (h : s ≠ .ended) :
    (run s os).2.count .closeClients = if (run s os).1 = .ended then 1 else 0 := by
  induction os generalizing s with
  | nil => exact (if_neg h).symm
  | cons o os ih =>
      have hnext := s.next_closeClients o h
      rw [run_cons, List.count_append, hnext]
      by_cases hended : (s.next o).1 = .ended
      · -- From the last stage nothing more is done.
        simp only [hended, run_ended, if_true, List.count_nil]
      · rw [if_neg hended, ih _ hended, Nat.zero_add]

end Server

namespace Serving

open World
open Draining (Vigil)

/-! ## The Release -/

/-- Nothing of the release was done. -/
structure Untouched (w : World) : Prop where
  /-- It has not begun. -/
  closing : w.closing = []
  /-- No client was closed. -/
  closed : w.closed = []
  /-- None has failed. -/
  unclosed : w.unclosed = []

/-- How far the release of some backends is. -/
inductive Release (backends : List (Target × Backend)) (w : World) : Prop
  /-- It is for a later stage. -/
  | awaited (hstage : w.gateway.stage ≠ some .ended) (htodo : w.todo.count .closeClients = 0)
      (h : Untouched w)
  /-- It is one of the things that are left to do. -/
  | due (hstage : w.gateway.stage = some .ended) (htodo : w.todo.count .closeClients = 1)
      (h : Untouched w)
  /-- The clients that were closed, and those that are yet to be, are all there are, backwards. -/
  | begun (hstage : w.gateway.stage = some .ended) (htodo : w.todo.count .closeClients = 0)
      (done : List (Target × Backend)) (hall : done ++ w.closing.map entry = backends.reverse)
      (hclosed : w.closed = done.map Prod.fst) (hunclosed : w.unclosed = failing done)

section Release

variable {backends : List (Target × Backend)} {w t : World}

theorem Release.untouched (h : Release backends w) (hstage : w.gateway.stage ≠ some .ended) :
    Untouched w := by
  cases h with
  | awaited _ _ h => exact h
  | due hended | begun hended => exact absurd hended hstage

theorem Release.congr (h : Release backends w) (hsame : SameWork w t) : Release backends t := by
  rcases hsame with ⟨hstage, htodo, hclosing, hclosed, hunclosed⟩
  have huntouched : Untouched w → Untouched t := fun h =>
    ⟨hclosing.trans h.closing, hclosed.trans h.closed, hunclosed.trans h.unclosed⟩
  cases h with
  | awaited hs ht h => exact .awaited (hstage ▸ hs) (htodo ▸ ht) (huntouched h)
  | due hs ht h => exact .due (hstage ▸ hs) (htodo ▸ ht) (huntouched h)
  | begun hs ht done hall hc hu =>
      exact .begun (hstage ▸ hs) (htodo ▸ ht) done (hclosing ▸ hall) (hclosed.trans hc)
        (hunclosed.trans hu)

/-- The release is due once the server passes to its last stage. -/
theorem Release.passes (h : Release backends w) {stage : Server.Stage} (hat : At stage w)
    (hne : stage ≠ .ended) (o : Server.Occurrence) : Release backends (w.passes stage o) := by
  have hbefore : w.gateway.stage ≠ some .ended := fun hended =>
    hne (Option.some.inj (hat.stage.symm.trans hended))
  have huntouched := h.untouched hbefore
  have hcount := stage.next_closeClients o hne
  by_cases hended : (stage.next o).1 = .ended
  · rw [if_pos hended] at hcount
    exact .due (congrArg some hended) hcount ⟨huntouched.1, huntouched.2, huntouched.3⟩
  · rw [if_neg hended] at hcount
    exact .awaited (fun hc => hended (Option.some.inj hc)) hcount
      ⟨huntouched.1, huntouched.2, huntouched.3⟩

/-- One client is closed, and whether that fails or not, the next ones are left. -/
theorem Release.closes (h : Release backends w) {line : Line} {rest : List Line}
    (hclosing : w.closing = line :: rest) : Release backends (w.closes line rest) := by
  cases h with
  | awaited _ _ h | due _ _ h =>
      have hnone := h.closing
      rw [hclosing] at hnone
      contradiction
  | begun hstage htodo done hall hclosed hunclosed =>
      refine .begun hstage htodo (done ++ [entry line]) ?_ ?_ ?_
      · rw [hclosing, List.map_cons] at hall
        rw [List.append_assoc]
        exact hall
      · have hnote := Switchboard.closed_note w.gateway.board (.closed line.target)
        rw [List.map_append, ← hclosed]
        exact hnote
      · simp only [World.closes, hunclosed, failing, List.filter_append, List.map_append]
        cases hcloses : line.backend.closes <;> simp [entry, hcloses]

/-- The release begins: every client is yet to be closed, the last one first. -/
theorem Release.begins (h : Release backends w) (hbackends : w.gateway.board.backends = backends)
    {rest : List Server.Action} (htodo : w.todo = .closeClients :: rest) :
    Release backends { w with closing := w.gateway.board.lines.reverse, todo := rest } := by
  have hcount : w.todo.count .closeClients = rest.count .closeClients + 1 := by
    rw [htodo]
    exact List.count_cons_self
  cases h with
  | awaited _ hnone | begun _ hnone => omega
  | due hstage hone huntouched =>
      have hzero : rest.count .closeClients = 0 := by omega
      refine .begun hstage hzero [] ?_ huntouched.closed huntouched.unclosed
      rw [List.nil_append, List.map_reverse, ← hbackends]
      rfl

/-- Anything else that is left to do has nothing to do with the release. -/
theorem Release.act (h : Release backends w) {a : Server.Action} {rest : List Server.Action}
    (htodo : w.todo = a :: rest) (ha : a ≠ .closeClients) :
    Release backends { w with gateway := w.gateway.act a, todo := rest } := by
  have hcount : rest.count .closeClients = w.todo.count .closeClients := by
    rw [htodo]
    exact (List.count_cons_of_ne ha).symm
  have hstage := act_stage w.gateway a
  have hclosed : (w.gateway.act a).board.closed = w.closed := by
    rw [act_board w.gateway a ha]
    rfl
  cases h with
  | awaited hs ht h =>
      exact .awaited (hstage.symm ▸ hs) (hcount.trans ht)
        ⟨h.closing, hclosed.trans h.closed, h.unclosed⟩
  | due hs ht h =>
      exact .due (hstage.trans hs) (hcount.trans ht)
        ⟨h.closing, hclosed.trans h.closed, h.unclosed⟩
  | begun hs ht done hall hc hu =>
      exact .begun (hstage.trans hs) (hcount.trans ht) done hall (hclosed.trans hc) hu

end Release

/-! ## Every Reachable World -/

/-- What holds of a server at a stage; `bound` says whether it was bound when it began. -/
def Fits (bound : Bool) (w : World) : Server.Stage → Prop
  | .idle b => b = bound ∧ w.vigil = none
  | .failed =>
    bound = false ∧ w.todo = [] ∧ w.closing = []
      ∧ w.outcome = some (.error Server.unboundMessage)
  | .serving => bound = true ∧ w.vigil = none
  | .draining => bound = true
  | .finishing => bound = true ∧ w.WaitReturned
  | .ended =>
    bound = true ∧ (w.vigil = none ∨ w.WaitReturned)
      ∧ ∃ verdict, w.listener = some verdict
        ∧ w.outcome = some (verdict.outcome w.vigil.isSome)

/-- What holds in every reachable world. -/
structure Inv (backends : List (Target × Backend)) (bound : Bool) (w : World) : Prop where
  /-- The backends stay behind their clients. -/
  board : w.gateway.board.backends = backends
  /-- The release is where it should be. -/
  release : Release backends w
  /-- The stage fits. -/
  fits : ∃ stage, w.gateway.stage = some stage ∧ Fits bound w stage

section Inv

variable {backends : List (Target × Backend)} {bound : Bool} {w t : World}

theorem Inv.fits_of (h : Inv backends bound w) {stage : Server.Stage}
    (hstage : w.gateway.stage = some stage) : Fits bound w stage := by
  rcases h.fits with ⟨s, hs, hfits⟩
  rw [hs] at hstage
  exact Option.some.inj hstage ▸ hfits

theorem waitReturned_congr (hvigil : t.vigil = w.vigil) (h : w.WaitReturned) :
    t.WaitReturned := by
  unfold WaitReturned
  rw [hvigil]
  exact h

/-- A stage fits as long as the wait, the listener and what is to be returned are the same, and
    nothing is left to do after a failure. -/
theorem Fits.congr {stage : Server.Stage} (h : Fits bound w stage)
    (hvigil : stage ≠ .draining → t.vigil = w.vigil)
    (hlistener : ∀ verdict, w.listener = some verdict → t.listener = some verdict)
    (houtcome : t.outcome = w.outcome)
    (hrest : stage = .failed → t.todo = [] ∧ t.closing = []) : Fits bound t stage := by
  cases stage with
  | idle b => exact ⟨h.1, (hvigil (by simp)).trans h.2⟩
  | failed => exact ⟨h.1, (hrest rfl).1, (hrest rfl).2, houtcome.trans h.2.2.2⟩
  | serving => exact ⟨h.1, (hvigil (by simp)).trans h.2⟩
  | draining => exact h
  | finishing => exact ⟨h.1, waitReturned_congr (hvigil (by simp)) h.2⟩
  | ended =>
      have hsame := hvigil (by simp)
      rcases h with ⟨hbound, hwait, verdict, hl, ho⟩
      refine ⟨hbound, ?_, verdict, hlistener verdict hl, ?_⟩
      · rw [hsame]
        exact hwait.imp id (waitReturned_congr hsame)
      · rw [houtcome, ho, hsame]

theorem inv_around (h : Inv backends bound w) (haround : Around w t) : Inv backends bound t := by
  have hspares := spares_around haround
  rcases h.fits with ⟨stage, hstage, hfits⟩
  refine ⟨hspares.backends.trans h.board, h.release.congr hspares.toSameWork, stage,
    hspares.stage.trans hstage, hfits.congr (fun hne => ?_) hspares.listener hspares.outcome ?_⟩
  · exact hspares.vigil fun hdraining => hne (Option.some.inj (hstage.symm.trans hdraining))
  · rintro rfl
    exact ⟨hspares.todo.trans hfits.2.1, hspares.closing.trans hfits.2.2.1⟩

theorem inv_work (h : Inv backends bound w) (hwork : w.work? = some t) :
    Inv backends bound t := by
  rcases h.fits with ⟨stage, hstage, hfits⟩
  -- A server that has failed has nothing left to do.
  have hrest : stage ≠ .failed := by
    rintro rfl
    have hnone : w.work? = none := by
      unfold work?
      rw [hfits.2.1, hfits.2.2.1]
    rw [hnone] at hwork
    contradiction
  have hlater := fun (t : World) => hfits.congr (t := t)
  rcases work?_cases hwork with ⟨line, rest, hclosing, rfl⟩ | ⟨rest, hclosing, htodo, rfl⟩
    | ⟨a, rest, hclosing, htodo, ha, rfl⟩
  · exact ⟨h.board, h.release.closes hclosing, stage, hstage,
      hlater _ (fun _ => rfl) (fun _ hl => hl) rfl (fun hc => absurd hc hrest)⟩
  · exact ⟨h.board, h.release.begins h.board htodo, stage, hstage,
      hlater _ (fun _ => rfl) (fun _ hl => hl) rfl (fun hc => absurd hc hrest)⟩
  · refine ⟨?_, h.release.act htodo ha, stage, (act_stage w.gateway a).trans hstage,
      hlater _ (fun _ => rfl) (fun _ hl => hl) rfl (fun hc => absurd hc hrest)⟩
    exact (congrArg Switchboard.backends (act_board w.gateway a ha)).trans h.board

theorem inv_own (h : Inv backends bound w) (hown : Own w t) : Inv backends bound t := by
  cases hown with
  | work _ h' => exact inv_work h h'
  | begin b hat =>
      have hfits := h.fits_of hat.stage
      rcases hfits with ⟨rfl, hvigil⟩
      have hpasses := h.release.passes hat (by simp) .begin
      refine ⟨h.board, hpasses.congr ⟨rfl, rfl, rfl, rfl, rfl⟩, _, rfl, ?_⟩
      cases b with
      | true => exact ⟨rfl, hvigil⟩
      | false => exact ⟨rfl, rfl, hat.closing, rfl⟩
  | stop hat =>
      have hfits := h.fits_of hat.stage
      exact ⟨h.board, h.release.passes hat (by simp) .stop, _, rfl, hfits.1⟩
  | early verdict hat hlistener =>
      have hfits := h.fits_of hat.stage
      have hpasses := h.release.passes hat (by simp) .finished
      refine ⟨h.board, hpasses.congr ⟨rfl, rfl, rfl, rfl, rfl⟩, _, rfl, hfits.1, .inl hfits.2,
        verdict, rfl, ?_⟩
      have hnone : w.vigil.isSome = false := by rw [hfits.2, Option.isSome_none]
      exact congrArg (fun stopped => some (verdict.outcome stopped)) hnone.symm
  | idle v hat hvigil hstage =>
      have hfits := h.fits_of hat.stage
      exact ⟨h.board, h.release.passes hat (by simp) .idle, _, rfl, hfits, v, true, hvigil,
        hstage⟩
  | overdue v verdict hat hvigil hstage _ =>
      have hfits := h.fits_of hat.stage
      have hpasses := h.release.passes hat (by simp) .overdue
      refine ⟨h.board, hpasses.congr ⟨rfl, rfl, rfl, rfl, rfl⟩, _, rfl, hfits,
        .inr ⟨v, false, hvigil, hstage⟩, verdict, rfl, ?_⟩
      have hsome : w.vigil.isSome = true := by rw [hvigil, Option.isSome_some]
      exact congrArg (fun stopped => some (verdict.outcome stopped)) hsome.symm
  | finished verdict hat hlistener =>
      rcases h.fits_of hat.stage with ⟨hbound, hreturned⟩
      have hpasses := h.release.passes hat (by simp) .finished
      refine ⟨h.board, hpasses.congr ⟨rfl, rfl, rfl, rfl, rfl⟩, _, rfl, hbound,
        .inr hreturned, verdict, rfl, ?_⟩
      have hsome : w.vigil.isSome = true := by
        rcases hreturned with ⟨v, _, hvigil, _⟩
        rw [hvigil, Option.isSome_some]
      exact congrArg (fun stopped => some (verdict.outcome stopped)) hsome.symm

theorem inv_of_reaches (h : Inv backends bound w) (hreaches : Reaches w t) :
    Inv backends bound t := by
  induction hreaches with
  | refl => exact h
  | tail _ hturn ih =>
      rcases hturn with hown | haround
      · exact inv_own ih hown
      · exact inv_around ih haround

end Inv

theorem inv_ofServer (board : Switchboard) (api : Api) (settings : ServerSettings) (bound : Bool)
    (hfresh : board.closed = []) :
    Inv board.backends bound (.ofServer board api settings bound) :=
  ⟨rfl, .awaited (by simp [ofServer, Rehearsal.ofServer]) rfl ⟨rfl, hfresh, rfl⟩, .idle bound, rfl,
    rfl, rfl⟩

/-! ## The Way to the End -/

/-- How many turns the server has yet to take, at most. A stage may take as many as there are
    clients to be closed, and four more. -/
def World.left (w : World) : Nat :=
  (w.gateway.stage.map Server.Stage.ahead).getD 0 * (w.gateway.board.lines.length + 4)
    + w.todo.length + w.closing.length
    + w.todo.count .closeClients * w.gateway.board.lines.length

theorem around_left {w t : World} (h : Around w t) : t.left = w.left := by
  have hspares := spares_around h
  have hlines : t.gateway.board.lines.length = w.gateway.board.lines.length := by
    have hlength := congrArg List.length hspares.backends
    simpa only [Switchboard.backends, List.length_map] using hlength
  unfold World.left
  rw [hspares.stage, hspares.todo, hspares.closing, hlines]

/-- Whatever there is to do in passing to a later stage, it is less than a stage may take. -/
theorem left_passes {w : World} {stage : Server.Stage} (hat : At stage w) (o : Server.Occurrence)
    (hne : stage ≠ .ended) (hahead : (stage.next o).1.ahead < stage.ahead) :
    (w.passes stage o).left < w.left := by
  have hlength := stage.next_length o
  have hcount : (stage.next o).2.count .closeClients ≤ 1 := by
    rw [stage.next_closeClients o hne]
    split <;> decide
  have hstages := Nat.mul_le_mul_right (w.gateway.board.lines.length + 4) (Nat.succ_le_of_lt hahead)
  have hclients := Nat.mul_le_mul_right w.gateway.board.lines.length hcount
  rw [Nat.succ_mul] at hstages
  simp only [World.left, World.passes, hat.stage, hat.todo, hat.closing, Option.map_some,
    Option.getD_some, List.length_nil, List.count_nil]
  omega

/-- Each turn of the server takes it closer to its end. -/
theorem own_left {w t : World} (h : Own w t) : t.left < w.left := by
  cases h with
  | work _ hwork =>
      rcases work?_cases hwork with ⟨line, rest, hclosing, rfl⟩ | ⟨rest, hclosing, htodo, rfl⟩
        | ⟨a, rest, hclosing, htodo, ha, rfl⟩
      · simp only [World.left, World.closes, Switchboard.note, hclosing, List.length_cons]
        omega
      · simp only [World.left, hclosing, htodo, List.length_cons, List.length_nil,
          List.length_reverse, List.count_cons_self, Nat.succ_mul]
        omega
      · simp only [World.left, htodo, List.length_cons, List.count_cons_of_ne ha,
          act_board w.gateway a ha, act_stage]
        omega
  | begin bound hat =>
      have hpasses := left_passes hat .begin (by simp) (by cases bound <;> decide)
      exact hpasses
  | stop hat => exact left_passes hat .stop (by simp) (by decide)
  | early _ hat => exact left_passes hat .finished (by simp) (by decide)
  | idle _ hat => exact left_passes hat .idle (by simp) (by decide)
  | overdue _ _ hat => exact left_passes hat .overdue (by simp) (by decide)
  | finished _ hat => exact left_passes hat .finished (by simp) (by decide)

/-- The server is not kept waiting for ever, by whoever is to stop it, by the requests under way or
    by its listener, and is not stopped from working. -/
def Attended (run : Nat → World) : Prop :=
  ∀ n, ¬ (run n).Returned → ∃ m, n ≤ m ∧ Own (run m) (run (m + 1))

theorem left_antitone (run : Nat → World) (hrun : ∀ n, Turn (run n) (run (n + 1))) (n m : Nat)
    (h : n ≤ m) : (run m).left ≤ (run n).left := by
  induction h with
  | refl => exact Nat.le_refl _
  | @step m _ ih =>
      rcases hrun m with hown | haround
      · exact Nat.le_trans (Nat.le_of_lt (own_left hown)) ih
      · exact Nat.le_trans (Nat.le_of_eq (around_left haround)) ih

/-- A server that is not kept waiting for ever returns. -/
theorem returns (run : Nat → World) (hrun : ∀ n, Turn (run n) (run (n + 1)))
    (hattended : Attended run) : ∃ n, (run n).Returned := by
  -- By the turns that are left: at some time the server takes one of them.
  suffices hleft : ∀ left n, (run n).left = left → ∃ m, (run m).Returned from hleft _ 0 rfl
  intro left
  induction left using Nat.strongRecOn with
  | ind left ih =>
      intro n hn
      by_cases hreturned : (run n).Returned
      · exact ⟨n, hreturned⟩
      · rcases hattended n hreturned with ⟨m, hle, hown⟩
        have hbefore := left_antitone run hrun n m hle
        have hless := own_left hown
        exact ih _ (by omega) (m + 1) rfl

/-! ## Coming to the End -/

/-- So many turns suffice for all that is left to do on the way to a stage. -/
theorem at_works (n : Nat) (w : World) (stage : Server.Stage)
    (hstage : w.gateway.stage = some stage) (hleft : w.left ≤ n) : At stage (w.works n) := by
  induction n generalizing w with
  | zero =>
      cases hwork : w.work? with
      | none => exact at_of_work?_eq_none hstage hwork
      | some t =>
          have hless := own_left (.work w t hwork)
          omega
  | succ n ih =>
      unfold works
      cases hwork : w.work? with
      | none => exact at_of_work?_eq_none hstage hwork
      | some t =>
          have hless := own_left (.work w t hwork)
          exact ih t ((work?_stage hwork).trans hstage) (by omega)

/-- The server can do all that is left to do on the way to its stage. -/
theorem reaches_at (w : World) (stage : Server.Stage) (h : w.gateway.stage = some stage) :
    ∃ t, Reaches w t ∧ At stage t :=
  ⟨_, reaches_works w.left w, at_works w.left w stage h (Nat.le_refl _)⟩

/-- The wait for an idle gateway can come to its end. -/
def WaitCanEnd (w : World) : Prop :=
  ∃ t, Reaches w t ∧ At .draining t ∧ t.WaitReturned

section Wait

variable {w : World} {v : Vigil}

theorem at_enters (hat : At .draining w) (s : Draining.World) : At .draining (w.enters s) :=
  ⟨hat.stage, hat.todo, hat.closing⟩

theorem not_waitReturned_of_none (hvigil : w.vigil = none) : ¬ w.WaitReturned := by
  rintro ⟨v, _, hv, _⟩
  rw [hvigil] at hv
  contradiction

theorem not_waitReturned {stage : Draining.Stage} (hvigil : w.vigil = some v)
    (hstage : v.stage = stage) (hne : ∀ idle, stage ≠ .ended idle) : ¬ w.WaitReturned := by
  rintro ⟨u, idle, hu, hended⟩
  rw [hvigil] at hu
  rw [← Option.some.inj hu, hstage] at hended
  exact hne idle hended

theorem waitCanEnd_head {t : World} (h : Around w t) (hend : WaitCanEnd t) : WaitCanEnd w := by
  rcases hend with ⟨u, hreaches, hat, hreturned⟩
  exact ⟨u, .head (.inr h) hreaches, hat, hreturned⟩

/-- A sleeper gives up once its deadline has passed. -/
theorem waitCanEnd_parked (hat : At .draining w) (hvigil : w.vigil = some v) (since : Nat)
    (hstage : v.stage = .parked since) : WaitCanEnd w := by
  have hclock := Draining.Step.clock w.room (max w.gateway.now v.deadline) (Nat.le_max_left _ _)
  refine waitCanEnd_head (.requests w _ hclock rfl) ?_
  generalize hlater : w.enters { w.room with now := max w.gateway.now v.deadline } = u
  have hu : At .draining u := hlater ▸ at_enters hat _
  have huvigil : u.vigil = some v := hlater ▸ hvigil
  have hpassed : v.deadline ≤ u.room.now := hlater ▸ Nat.le_max_right _ _
  have hgiveUp := Draining.Step.giveUp u.room v since huvigil hstage hpassed
  have hwaits := not_waitReturned huvigil hstage (by simp)
  exact ⟨_, .single (.inr (.wait u _ hgiveUp hu hwaits)), at_enters hu _, _, _, rfl, rfl⟩

/-- Who has read zero stops the server. -/
theorem waitCanEnd_relieved (hat : At .draining w) (hvigil : w.vigil = some v)
    (hstage : v.stage = .relieved) : WaitCanEnd w := by
  have hstop := Draining.Step.stop w.room v hvigil hstage
  have hwaits := not_waitReturned hvigil hstage (by simp)
  exact ⟨_, .single (.inr (.wait w _ hstop hat hwaits)), at_enters hat _, _, _, rfl, rfl⟩

theorem waitCanEnd_listening (hat : At .draining w) (hvigil : w.vigil = some v) (since : Nat)
    (hstage : v.stage = .listening since) : WaitCanEnd w := by
  have hlook := Draining.Step.look w.room v since hvigil hstage
  have hwaits := not_waitReturned hvigil hstage (by simp)
  refine waitCanEnd_head (.wait w _ hlook hat hwaits) ?_
  by_cases hidle : w.gateway.lifecycle.inFlight = 0
  · exact waitCanEnd_relieved (at_enters hat _) rfl (if_pos hidle)
  · exact waitCanEnd_parked (at_enters hat _) rfl since (if_neg hidle)

theorem waitCanEnd_turning (hat : At .draining w) (hvigil : w.vigil = some v)
    (hstage : v.stage = .turning) : WaitCanEnd w := by
  have hlisten := Draining.Step.listen w.room v hvigil hstage
  have hwaits := not_waitReturned hvigil hstage (by simp)
  refine waitCanEnd_head (.wait w _ hlisten hat hwaits) ?_
  exact waitCanEnd_listening (at_enters hat _) rfl w.told rfl

theorem waitCanEnd (hat : At .draining w) : WaitCanEnd w := by
  cases hvigil : w.vigil with
  | none =>
      have hstart := Draining.Step.start w.room 0 fun v hv => by
        rw [show w.room.vigil = none from hvigil] at hv
        contradiction
      exact waitCanEnd_head (.wait w _ hstart hat (not_waitReturned_of_none hvigil))
        (waitCanEnd_turning (at_enters hat _) rfl rfl)
  | some v =>
      cases hstage : v.stage with
      | turning => exact waitCanEnd_turning hat hvigil hstage
      | listening since => exact waitCanEnd_listening hat hvigil since hstage
      | relieved => exact waitCanEnd_relieved hat hvigil hstage
      | parked since => exact waitCanEnd_parked hat hvigil since hstage
      | ended idle => exact ⟨w, .refl, hat, v, idle, hvigil, hstage⟩

end Wait

/-- The server can come to its end. -/
def CanReturn (w : World) : Prop :=
  ∃ t, Reaches w t ∧ t.Returned

theorem canReturn_of_reaches {w t : World} (h : Reaches w t) (hend : CanReturn t) :
    CanReturn w := by
  rcases hend with ⟨u, hreaches, hreturned⟩
  exact ⟨u, .trans h hreaches, hreturned⟩

theorem canReturn_ended (w : World) (h : w.gateway.stage = some .ended) : CanReturn w := by
  rcases reaches_at w .ended h with ⟨t, hreaches, hat⟩
  exact ⟨t, hreaches, .inl hat⟩

theorem canReturn_finishing (w : World) (h : w.gateway.stage = some .finishing) :
    CanReturn w := by
  rcases reaches_at w .finishing h with ⟨t, hreaches, hat⟩
  refine canReturn_of_reaches hreaches ?_
  cases hlistener : t.listener with
  | some verdict =>
      exact canReturn_of_reaches (.single (.inl (.finished t verdict hat hlistener)))
        (canReturn_ended _ rfl)
  | none =>
      have hends := Around.listener t .served hlistener
        ⟨.finishing, by simp, hat.stage⟩
      have hfinished := Own.finished { t with listener := some .served } .served
        ⟨hat.stage, hat.todo, hat.closing⟩ rfl
      exact canReturn_of_reaches (.head (.inr hends) (.single (.inl hfinished)))
        (canReturn_ended _ rfl)

theorem canReturn_draining (w : World) (h : w.gateway.stage = some .draining) :
    CanReturn w := by
  rcases reaches_at w .draining h with ⟨t, hreaches, hat⟩
  rcases waitCanEnd hat with ⟨u, hwait, hu, v, idle, hvigil, hstage⟩
  refine canReturn_of_reaches (.trans hreaches hwait) ?_
  cases idle with
  | true =>
      exact canReturn_of_reaches (.single (.inl (.idle u v hu hvigil hstage)))
        (canReturn_finishing _ rfl)
  | false =>
      -- What the listener has come to by itself counts, and otherwise it is given up.
      have hoverdue := Own.overdue u v (u.listener.getD (.givenUp "")) hu hvigil hstage
        fun earlier he => by rw [he, Option.getD_some]
      exact canReturn_of_reaches (.single (.inl hoverdue)) (canReturn_ended _ rfl)

theorem canReturn_serving (w : World) (h : w.gateway.stage = some .serving) : CanReturn w := by
  rcases reaches_at w .serving h with ⟨t, hreaches, hat⟩
  exact canReturn_of_reaches (hreaches.tail (.inl (.stop t hat))) (canReturn_draining _ rfl)

theorem can_return (w : World) (stage : Server.Stage) (h : w.gateway.stage = some stage) :
    CanReturn w := by
  cases stage with
  | idle bound =>
      rcases reaches_at w (.idle bound) h with ⟨t, hreaches, hat⟩
      refine canReturn_of_reaches (hreaches.tail (.inl (.begin t bound hat))) ?_
      cases bound with
      | true => exact canReturn_serving _ rfl
      | false => exact ⟨_, .refl, .inr ⟨rfl, rfl, hat.closing⟩⟩
  | failed =>
      rcases reaches_at w .failed h with ⟨t, hreaches, hat⟩
      exact ⟨t, hreaches, .inr hat⟩
  | serving => exact canReturn_serving w h
  | draining => exact canReturn_draining w h
  | finishing => exact canReturn_finishing w h
  | ended => exact canReturn_ended w h

/-! ## The Backends -/

section Closed

variable {backends : List (Target × Backend)} {bound : Bool} {w : World}

/-- At any time the clients that were closed are the last ones registered, backwards. -/
theorem closed_prefix (h : Inv backends bound w) :
    w.closed <+: (backends.map Prod.fst).reverse := by
  cases h.release with
  | awaited _ _ h | due _ _ h =>
      rw [h.closed]
      exact List.nil_prefix
  | begun _ _ done hall hclosed _ =>
      rw [hclosed, ← List.map_reverse, ← hall, List.map_append]
      exact List.prefix_append _ _

/-- Before the last stage no client is closed. -/
theorem ended_of_closed (h : Inv backends bound w) (hclosed : w.closed ≠ []) :
    w.gateway.stage = some .ended :=
  Classical.byContradiction fun hstage => hclosed (h.release.untouched hstage).closed

theorem closed_of_ended (h : Inv backends bound w) (hat : At .ended w) :
    w.closed = (backends.map Prod.fst).reverse ∧ w.unclosed = failing backends.reverse := by
  cases h.release with
  | awaited hstage => exact absurd hat.stage hstage
  | due _ htodo =>
      rw [hat.todo] at htodo
      exact absurd htodo (by decide)
  | begun _ _ done hall hclosed hunclosed =>
      rw [hat.closing, List.map_nil, List.append_nil] at hall
      rw [hclosed, hunclosed, hall, List.map_reverse]
      exact ⟨rfl, rfl⟩

end Closed

/-- However a server ends, whatever happens around it meanwhile and whichever clients fail to close,
    it closes the clients one after another, backwards, and none before its wait for an idle gateway
    has returned or its listener has ended early. A server that was bound and has returned has
    closed every client once, and returns what has come of its listener. It does return if it is not
    kept waiting for ever, needs nobody for that in its last stage, and can from wherever it is. A
    server that was never bound returns an error and closes nothing. -/
theorem backends_released (registry : Registry) (board : Switchboard) (api : Api)
    (settings : ServerSettings) (bound : Bool) (w : World)
    (hregistered : board.targets = registry.targets) (hfresh : board.closed = [])
    (h : Reaches (.ofServer board api settings bound) w) :
    w.closed <+: registry.targets.reverse
      ∧ (w.closed ≠ [] → w.WaitReturned ∨ w.EndedEarly)
      ∧ (bound = true → w.Returned →
        w.closed = registry.targets.reverse
          ∧ (∀ t ∈ registry.targets, w.closed.count t = 1)
          ∧ w.unclosed = failing board.backends.reverse
          ∧ ∃ verdict, w.listener = some verdict
            ∧ w.outcome = some (verdict.outcome w.vigil.isSome))
      ∧ (w.gateway.stage = some .ended → (w.works w.left).Returned)
      ∧ (∀ run : Nat → World, run 0 = w → (∀ n, Turn (run n) (run (n + 1))) → Attended run →
        ∃ n, (run n).Returned)
      ∧ (∃ t, Reaches w t ∧ t.Returned)
      ∧ (bound = false → w.closed = []
        ∧ (w.Returned → w.outcome = some (.error Server.unboundMessage))) := by
  have hinv := inv_of_reaches (inv_ofServer board api settings bound hfresh) h
  have htargets : board.backends.map Prod.fst = registry.targets := by
    rw [← Switchboard.targets_eq, hregistered]
  rcases hinv.fits with ⟨stage, hstage, hfits⟩
  refine ⟨htargets ▸ closed_prefix hinv, fun hclosed => ?_, fun hbound hreturned => ?_,
    fun hended => .inl (at_works w.left w .ended hended (Nat.le_refl _)),
    fun run _ hrun hattended => returns run hrun hattended, can_return w stage hstage,
    fun hunbound => ⟨?_, fun hreturned => ?_⟩⟩
  · have hended := hinv.fits_of (ended_of_closed hinv hclosed)
    rcases hended with ⟨_, hwait, verdict, hlistener, _⟩
    rcases hwait with hnone | hreturned
    · exact .inr ⟨hnone, by rw [hlistener, Option.isSome_some]⟩
    · exact .inl hreturned
  · rcases hreturned with hat | hat
    · have hclosed := closed_of_ended hinv hat
      rw [htargets] at hclosed
      refine ⟨hclosed.1, fun t ht => ?_, hclosed.2, (hinv.fits_of hat.stage).2.2⟩
      have hdistinct : registry.targets.Nodup := registry.distinct
      rw [hclosed.1, List.count_reverse, hdistinct.count, if_pos ht]
    · -- Only a server that was not bound fails.
      have hfailed := (hinv.fits_of hat.stage).1
      rw [hbound] at hfailed
      contradiction
  · refine Classical.byContradiction fun hclosed => ?_
    have hended := (hinv.fits_of (ended_of_closed hinv hclosed)).1
    rw [hunbound] at hended
    contradiction
  · rcases hreturned with hat | hat
    · have hended := (hinv.fits_of hat.stage).1
      rw [hunbound] at hended
      contradiction
    · exact (hinv.fits_of hat.stage).2.2.2

/-- A server of all targets, where the client of the second one fails to close. -/
def reluctant : World :=
  .ofServer (.ofLines [(.notification, .echo), (.inventory, .ofScript [] false), (.aiMl, .echo)]
    8 5000) { secret := "k", probeTimeout := 2000, recorded := false, wall := 0 } {} true

/-- A request is under way when the server is told to stop, and still is at the end of its wait. All
    clients are closed nevertheless. -/
theorem backends_released_overdue : ∃ w, Reaches reluctant w ∧ w.Returned
    ∧ w.gateway.lifecycle.inFlight = 1 ∧ w.closed = [.aiMl, .inventory, .notification]
    ∧ w.unclosed = [.inventory] := by
  have h₁ : Reaches reluctant _ := .single (.inl (.begin _ true ⟨rfl, rfl, rfl⟩))
  have h₂ := h₁.trans (reaches_works 3 _)
  have h₃ := h₂.tail (.inr (.requests _ _ (.enter _) rfl))
  have h₄ := h₃.tail (.inl (.stop _ ⟨rfl, rfl, rfl⟩))
  have h₅ := h₄.trans (reaches_works 2 _)
  -- It waits for the request, and gives up.
  have hnobody : ∀ v : Vigil, none = some v → ∃ idle, v.stage = .ended idle :=
    fun v hv => absurd hv (Option.some_ne_none v).symm
  have h₆ := h₅.tail (.inr (.wait _ _ (.start _ 50 hnobody) ⟨rfl, rfl, rfl⟩
    (not_waitReturned_of_none rfl)))
  have h₇ := h₆.tail (.inr (.wait _ _ (.listen _ _ rfl rfl) ⟨rfl, rfl, rfl⟩
    (not_waitReturned rfl rfl (by simp))))
  have h₈ := h₇.tail (.inr (.wait _ _ (.look _ _ 0 rfl rfl) ⟨rfl, rfl, rfl⟩
    (not_waitReturned rfl rfl (by simp))))
  have h₉ := h₈.tail (.inr (.requests _ _ (.clock _ 50 (Nat.zero_le _)) rfl))
  have h₁₀ := h₉.tail (.inr (.wait _ _ (.giveUp _ _ 0 rfl rfl (Nat.le_refl 50)) ⟨rfl, rfl, rfl⟩
    (not_waitReturned rfl (rfl : _ = Draining.Stage.parked 0) (by simp))))
  have h₁₁ := h₁₀.tail (.inl (.overdue _ _ (.givenUp "aborted") ⟨rfl, rfl, rfl⟩ rfl rfl
    fun _ he => absurd he (Option.some_ne_none _).symm))
  have h₁₂ := h₁₁.trans (reaches_works 6 _)
  rcases backends_released .default _ _ _ true _ rfl rfl h₁₂ with ⟨_, _, hclosed, _⟩
  rcases hclosed rfl (.inl ⟨rfl, rfl, rfl⟩) with ⟨hall, _, hunclosed, _⟩
  exact ⟨_, h₁₂, .inl ⟨rfl, rfl, rfl⟩, rfl, hall, hunclosed⟩

end Serving

end Gateway
