import Gateway.Program
import Gateway.Proofs.Lifecycle.Draining
import Gateway.Proofs.Switchboard.Closing

/-!
# A Server and What Is Around It

A server that serves does a few things after another, and none of this is atomic. Between any two of
them requests come and go, calls are placed and settle, the listener ends, and other owners of the
controller do with it what they like. So a server is described here as a relation on worlds. A world
holds the gateway with the stage of its server, and what the server has still to do on its way
there: the actions that `Server.Stage.next` lists, and while it releases the backends, the clients
that it has yet to close. The server waits for an idle gateway by the turns of `Draining.Step`, and
calls take the turns of `Switchboard.Turn`.

Turns are of two kinds, those of the server (`Own`) and those around it (`Around`). The listener may
end at any time and for any reason. It ends because the server was told to stop, because somebody
else triggered the shutdown, or because it broke down, and the server that waits for it cannot tell.
What is around the server leaves its work alone (`Spares`), so what it is doing is a matter of its
own turns only.

To release the backends is one action of the server, but many turns, one for each client. A client
that fails to close is noted, and the next one has its turn. When nobody interrupts it, all of this
comes to what `Rehearsal.occur` does at once (`occur_reaches`).

## Main definitions

* `Verdict`: What has come of the listener.
* `World`, `World.ofServer`: A server with what is around it, and before it serves.
* `World.work?`, `World.works`: The next thing that the server does, and several of them.
* `World.WaitReturned`, `World.EndedEarly`, `World.Returned`: How far the server has come.
* `Own`, `Around`, `Turn`, `Reaches`: The turns.

## Theorems

* `Rehearsal.bindAddress_ofServer`: Which servers are bound.
* `spares_around`: What is around the server leaves its work alone.
* `work?_cases`: What there is to do next.
* `occur_reaches`: What a server does without interruption is `Rehearsal.occur`.
-/

namespace Gateway

/-- A server is bound once the system has given it its address, and otherwise is as it was. -/
theorem Rehearsal.bindAddress_ofServer (board : Switchboard) (api : Api)
    (settings : ServerSettings) (given : Except IoKind Unit) :
    (ofServer board api settings false).bindAddress given
      = (ofServer board api settings given.isOk, given) := by
  cases given <;> rfl

namespace Serving

open Draining (Guard Vigil)

/-- What has come of the listener. -/
inductive Verdict where
  /-- It has served its last connection. -/
  | served
  /-- It has failed, or broken off. -/
  | failed (text : String)
  /-- It was given up. -/
  | givenUp (text : String)

/-- What a server returns when that has come of its listener. Once it was told to stop it may have
    given the listener up itself, and that is no failure. -/
def Verdict.outcome (stopped : Bool) : Verdict → Except String Unit
  | .served => .ok ()
  | .failed text => .error text
  | .givenUp text => if stopped then .ok () else .error text

/-- A server with what is around it. -/
structure World where
  /-- The gateway: its clients, its controller, and the stage of its server. -/
  gateway : Rehearsal
  /-- A guard for every request that was ever counted. -/
  guards : List Guard
  /-- How often whoever waits was told that the gateway is idle. -/
  told : Nat
  /-- The server's wait for an idle gateway, once it has begun. -/
  vigil : Option Vigil
  /-- What has come of the listener, if it has ended. -/
  listener : Option Verdict
  /-- What is left to do of what is done in passing to the stage. -/
  todo : List Server.Action
  /-- The clients that are yet to be closed, in order, once the release has begun. -/
  closing : List Line
  /-- The clients that failed to close, in order. -/
  unclosed : List Target
  /-- What the server is going to return, once that is known. -/
  outcome : Option (Except String Unit)

namespace World

/-- A server that does not serve yet. -/
def ofServer (board : Switchboard) (api : Api) (settings : ServerSettings) (bound : Bool) :
    World where
  gateway := .ofServer board api settings bound
  guards := []
  told := 0
  vigil := none
  listener := none
  todo := []
  closing := []
  unclosed := []
  outcome := none

/-- The parties that take turns on the controller. -/
def room (w : World) : Draining.World :=
  ⟨w.gateway.lifecycle, w.guards, w.told, w.gateway.now, w.vigil⟩

/-- The world once they have. -/
def enters (w : World) (s : Draining.World) : World :=
  { w with
    gateway := { w.gateway.withLifecycle s.lifecycle with now := s.now }
    guards := s.guards
    told := s.told
    vigil := s.vigil }

/-- The clients that were closed, in order. -/
def closed (w : World) : List Target :=
  w.gateway.board.closed

/-- The server passes to the next stage, and has yet to do what is done on the way. -/
def passes (w : World) (stage : Server.Stage) (o : Server.Occurrence) : World :=
  { w with
    gateway := { w.gateway with stage := some (stage.next o).1 }
    todo := (stage.next o).2 }

/-- The server knows what it is going to return. -/
def returning (w : World) (verdict : Verdict) (stopped : Bool) : World :=
  { w with listener := some verdict, outcome := some (verdict.outcome stopped) }

/-- The client of a line is closed. If that fails it is noted, and nothing else. -/
def closes (w : World) (line : Line) (rest : List Line) : World :=
  { w with
    gateway := { w.gateway with board := w.gateway.board.note (.closed line.target) }
    closing := rest
    unclosed := if line.backend.closes then w.unclosed else w.unclosed ++ [line.target] }

/-- The server does the first of what is left to do. To release the backends is to close one client
    after another, in reverse registry order. -/
def work? (w : World) : Option World :=
  match w.closing, w.todo with
  | line :: rest, _ => some (w.closes line rest)
  | [], .closeClients :: rest =>
    some { w with closing := w.gateway.board.lines.reverse, todo := rest }
  | [], a :: rest => some { w with gateway := w.gateway.act a, todo := rest }
  | [], [] => none

/-- The server with so many of the things done that are left to do. -/
def works : Nat → World → World
  | 0, w => w
  | n + 1, w =>
    match w.work? with
    | some t => works n t
    | none => w

/-- The server is at a stage, with nothing left to do on the way. -/
structure At (stage : Server.Stage) (w : World) : Prop where
  /-- It is the stage. -/
  stage : w.gateway.stage = some stage
  /-- No action is left. -/
  todo : w.todo = []
  /-- No client is left to be closed. -/
  closing : w.closing = []

/-- The wait for an idle gateway has returned. -/
def WaitReturned (w : World) : Prop :=
  ∃ v idle, w.vigil = some v ∧ v.stage = .ended idle

/-- The listener has ended, and the server had not begun to wait for an idle gateway. -/
def EndedEarly (w : World) : Prop :=
  w.vigil = none ∧ w.listener.isSome = true

/-- The server has returned. -/
def Returned (w : World) : Prop :=
  At .ended w ∨ At .failed w

end World

open World

/-- The turns of a server. -/
inductive Own : World → World → Prop
  /-- It does the first of what is left to do. -/
  | work (w t : World) (h : w.work? = some t) : Own w t
  /-- It begins to serve if it is bound, and otherwise fails. -/
  | begin (w : World) (bound : Bool) (h : At (.idle bound) w) :
      Own w
        { w.passes (.idle bound) .begin with
          outcome := if bound then none else some (.error Server.unboundMessage) }
  /-- It is told to stop. -/
  | stop (w : World) (h : At .serving w) : Own w (w.passes .serving .stop)
  /-- It sees that its listener has ended before it was told to stop. -/
  | early (w : World) (verdict : Verdict) (h : At .serving w)
      (hlistener : w.listener = some verdict) :
      Own w ((w.passes .serving .finished).returning verdict false)
  /-- Its wait has returned, and the gateway is idle. -/
  | idle (w : World) (v : Vigil) (h : At .draining w) (hvigil : w.vigil = some v)
      (hstage : v.stage = .ended true) : Own w (w.passes .draining .idle)
  /-- Its wait has returned, and the gateway is not idle. It gives the listener up, unless that has
      ended. -/
  | overdue (w : World) (v : Vigil) (verdict : Verdict) (h : At .draining w)
      (hvigil : w.vigil = some v) (hstage : v.stage = .ended false)
      (hlistener : ∀ earlier, w.listener = some earlier → verdict = earlier) :
      Own w ((w.passes .draining .overdue).returning verdict true)
  /-- Its listener has ended after the last connection. -/
  | finished (w : World) (verdict : Verdict) (h : At .finishing w)
      (hlistener : w.listener = some verdict) :
      Own w ((w.passes .finishing .finished).returning verdict true)

/-- The turns around a server, each of which may come at any time. -/
inductive Around : World → World → Prop
  /-- The listener ends, for whatever reason. -/
  | listener (w : World) (verdict : Verdict) (h : w.listener = none)
      (hserves : ∃ stage ∈ [Server.Stage.serving, .draining, .finishing],
        w.gateway.stage = some stage) :
      Around w { w with listener := some verdict }
  /-- A request is counted or its guard is dropped, or time passes. -/
  | requests (w : World) (s : Draining.World) (h : Draining.Step w.room s)
      (hvigil : s.vigil = w.vigil) : Around w (w.enters s)
  /-- The server waits for an idle gateway. -/
  | wait (w : World) (s : Draining.World) (h : Draining.Step w.room s) (hat : At .draining w)
      (hwaits : ¬ w.WaitReturned) : Around w (w.enters s)
  /-- Another owner of the controller does something with it. -/
  | control (w : World) (op : Operation) (hop : op ≠ .enter ∧ op ≠ .leave) :
      Around w { w with gateway := w.gateway.withLifecycle (w.gateway.lifecycle.perform op) }
  /-- A call is placed, settles or is given up. -/
  | call (w : World) (b : Switchboard) (h : Switchboard.Turn w.gateway.board b) :
      Around w { w with gateway := { w.gateway with board := b } }

/-- The turns. -/
def Turn (w t : World) : Prop :=
  Own w t ∨ Around w t

/-- A world leads to another in any number of turns. -/
def Reaches : World → World → Prop :=
  Relation.ReflTransGen Turn

/-- The client of a line, with its backend. -/
def entry (l : Line) : Target × Backend :=
  (l.target, l.backend)

/-- Those of some clients that fail to close. -/
def failing (entries : List (Target × Backend)) : List Target :=
  (entries.filter fun e => !e.2.closes).map Prod.fst

/-! ## What Is Around a Server -/

/-- Nothing has happened to what the server is doing. -/
structure SameWork (w t : World) : Prop where
  /-- It is at the same stage. -/
  stage : t.gateway.stage = w.gateway.stage
  /-- The same actions are left. -/
  todo : t.todo = w.todo
  /-- The same clients are yet to be closed. -/
  closing : t.closing = w.closing
  /-- The same clients were closed. -/
  closed : t.closed = w.closed
  /-- The same ones of them failed. -/
  unclosed : t.unclosed = w.unclosed

/-- What the turns around a server leave alone. The listener stays as it has ended, and only a
    server that drains waits for an idle gateway. -/
structure Spares (w t : World) : Prop extends SameWork w t where
  /-- The same backends are behind the clients. -/
  backends : t.gateway.board.backends = w.gateway.board.backends
  /-- The server is going to return the same. -/
  outcome : t.outcome = w.outcome
  /-- What has come of the listener is settled. -/
  listener : ∀ verdict, w.listener = some verdict → t.listener = some verdict
  /-- The wait goes on only in its stage. -/
  vigil : w.gateway.stage ≠ some .draining → t.vigil = w.vigil

theorem spares_around {w t : World} (h : Around w t) : Spares w t := by
  cases h with
  | listener verdict h _ =>
      refine ⟨⟨rfl, rfl, rfl, rfl, rfl⟩, rfl, rfl, fun earlier hearlier => ?_, fun _ => rfl⟩
      rw [h] at hearlier
      contradiction
  | requests s h hvigil =>
      exact ⟨⟨rfl, rfl, rfl, rfl, rfl⟩, rfl, rfl, fun _ hl => hl, fun _ => hvigil⟩
  | wait s h hat hwaits =>
      exact ⟨⟨rfl, rfl, rfl, rfl, rfl⟩, rfl, rfl, fun _ hl => hl, fun hne => absurd hat.stage hne⟩
  | control op hop => exact ⟨⟨rfl, rfl, rfl, rfl, rfl⟩, rfl, rfl, fun _ hl => hl, fun _ => rfl⟩
  | call b h =>
      rcases Switchboard.turn_closed h with ⟨hclosed, hbackends⟩
      exact ⟨⟨rfl, rfl, rfl, hclosed, rfl⟩, hbackends, rfl, fun _ hl => hl, fun _ => rfl⟩

/-! ## The Server at Work -/

theorem act_board (r : Rehearsal) (a : Server.Action) (h : a ≠ .closeClients) :
    (r.act a).board = r.board := by
  cases a with
  | closeClients => exact absurd rfl h
  | say | subscribe | setReady | trigger => rfl

theorem act_stage (r : Rehearsal) (a : Server.Action) : (r.act a).stage = r.stage := by
  cases a <;> rfl

/-- What there is to do next: to close a client, to begin with the release, or another action. -/
theorem work?_cases {w t : World} (h : w.work? = some t) :
    (∃ line rest, w.closing = line :: rest ∧ t = w.closes line rest)
      ∨ (∃ rest, w.closing = [] ∧ w.todo = .closeClients :: rest
        ∧ t = { w with closing := w.gateway.board.lines.reverse, todo := rest })
      ∨ ∃ a rest, w.closing = [] ∧ w.todo = a :: rest ∧ a ≠ .closeClients
        ∧ t = { w with gateway := w.gateway.act a, todo := rest } := by
  unfold work? at h
  split at h
  · exact .inl ⟨_, _, ‹_›, (Option.some.inj h).symm⟩
  · exact .inr (.inl ⟨_, ‹_›, ‹_›, (Option.some.inj h).symm⟩)
  · rename_i a rest ha hclosing htodo
    exact .inr (.inr ⟨a, rest, hclosing, htodo, ha, (Option.some.inj h).symm⟩)
  · contradiction

theorem work?_stage {w t : World} (h : w.work? = some t) : t.gateway.stage = w.gateway.stage := by
  rcases work?_cases h with ⟨line, rest, _, rfl⟩ | ⟨rest, _, _, rfl⟩ | ⟨a, rest, _, _, _, rfl⟩
  · rfl
  · rfl
  · exact act_stage w.gateway a

/-- With nothing to do next, nothing is left. -/
theorem at_of_work?_eq_none {w : World} {stage : Server.Stage}
    (hstage : w.gateway.stage = some stage) (h : w.work? = none) : At stage w := by
  unfold work? at h
  split at h
  · contradiction
  · contradiction
  · contradiction
  · exact ⟨hstage, ‹_›, ‹_›⟩

theorem work?_closing {w : World} {line : Line} {rest : List Line} (h : w.closing = line :: rest) :
    w.work? = some (w.closes line rest) := by
  unfold work?
  rw [h]

theorem work?_release {w : World} {rest : List Server.Action} (hclosing : w.closing = [])
    (h : w.todo = .closeClients :: rest) :
    w.work? = some { w with closing := w.gateway.board.lines.reverse, todo := rest } := by
  unfold work?
  rw [hclosing, h]

theorem work?_act {w : World} {a : Server.Action} {rest : List Server.Action}
    (hclosing : w.closing = []) (h : w.todo = a :: rest) (ha : a ≠ .closeClients) :
    w.work? = some { w with gateway := w.gateway.act a, todo := rest } := by
  unfold work?
  rw [hclosing, h]
  cases a with
  | closeClients => exact absurd rfl ha
  | say | subscribe | setReady | trigger => rfl

/-! ## Turns That Nobody Interrupts -/

theorem reaches_work {w t : World} (h : w.work? = some t) : Reaches w t :=
  .single (.inl (.work w t h))

theorem reaches_works (n : Nat) (w : World) : Reaches w (w.works n) := by
  induction n generalizing w with
  | zero => exact .refl
  | succ n ih =>
      unfold World.works
      split
      · exact .trans (reaches_work ‹_›) (ih _)
      · exact .refl

/-- The clients that are yet to be closed are closed, whichever of them fail. -/
theorem reaches_closing (w : World) :
    Reaches w
      { w with
        gateway :=
          { w.gateway with
            board := w.closing.foldl (fun b l => b.note (.closed l.target)) w.gateway.board }
        closing := []
        unclosed := w.unclosed ++ failing (w.closing.map entry) } := by
  generalize hclosing : w.closing = lines
  induction lines generalizing w with
  | nil =>
      have hunclosed : w.unclosed ++ failing (List.map entry []) = w.unclosed :=
        List.append_nil w.unclosed
      rw [hunclosed, List.foldl_nil, ← hclosing]
      exact .refl
  | cons line rest ih =>
      have hrest := ih (w.closes line rest) rfl
      have hunclosed : (w.closes line rest).unclosed ++ failing (rest.map entry)
          = w.unclosed ++ failing ((line :: rest).map entry) := by
        simp only [World.closes, failing, List.map_cons, List.filter_cons]
        cases hcloses : line.backend.closes <;> simp [entry, hcloses]
      rw [hunclosed] at hrest
      exact .trans (reaches_work (work?_closing hclosing)) hrest

/-- What is left to do is done. -/
theorem reaches_todo (w : World) (hclosing : w.closing = []) :
    ∃ unclosed, Reaches w
      { w with
        gateway := w.todo.foldl Rehearsal.act w.gateway
        todo := []
        unclosed := unclosed } := by
  generalize htodo : w.todo = todo
  induction todo generalizing w with
  | nil =>
      refine ⟨w.unclosed, ?_⟩
      rw [List.foldl_nil, ← htodo]
      exact .refl
  | cons a rest ih =>
      by_cases ha : a = .closeClients
      · -- The release is the closing of each client, and `Switchboard.close` as a whole.
        rw [ha] at htodo
        have hrelease := reaches_work (work?_release hclosing htodo)
        have hclose := reaches_closing
          { w with closing := w.gateway.board.lines.reverse, todo := rest }
        rcases ih { w with
            gateway := w.gateway.act .closeClients
            todo := rest
            unclosed := w.unclosed ++ failing (w.gateway.board.lines.reverse.map entry) }
          hclosing rfl with ⟨unclosed, hrest⟩
        rw [ha]
        refine ⟨unclosed, .trans hrelease (.trans hclose ?_)⟩
        rw [hclosing] at hrest
        rw [hclosing]
        exact hrest
      · have hact := reaches_work (work?_act hclosing htodo ha)
        rcases ih { w with gateway := w.gateway.act a, todo := rest } hclosing rfl with
          ⟨unclosed, hrest⟩
        exact ⟨unclosed, .trans hact hrest⟩

/-- What occurs to a server, and what is done about it without interruption, is `Rehearsal.occur` of
    the gateway. -/
theorem occur_reaches (w : World) (stage : Server.Stage) (o : Server.Occurrence)
    (hat : At stage w) :
    ∃ unclosed, Reaches (w.passes stage o)
      { w with gateway := w.gateway.occur o, unclosed := unclosed } := by
  rcases reaches_todo (w.passes stage o) hat.closing with ⟨unclosed, hreaches⟩
  refine ⟨unclosed, ?_⟩
  have hoccur : w.gateway.occur o
      = (stage.next o).2.foldl Rehearsal.act { w.gateway with stage := some (stage.next o).1 } := by
    unfold Rehearsal.occur
    rw [hat.stage]
  rw [hoccur, hat.todo]
  exact hreaches

end Serving

end Gateway
