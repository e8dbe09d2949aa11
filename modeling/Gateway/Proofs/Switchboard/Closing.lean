import Gateway.Proofs.Switchboard.Conservation

/-!
# Which Clients Were Closed

That a client was closed is written to the trace, like everything else that is seen at the backends.
Calls write there as well, but never that: a call may be placed, settle or be given up at any time,
also when some of the clients have been closed, and closes none. Closing all of them at once closes
each in turn, the last one in the registry first.

## Main definitions

* `Switchboard.closed`: The clients that were closed, in order.

## Theorems

* `Switchboard.turn_closed`: No call closes a client.
* `Switchboard.close_closed`: Which clients are closed by closing them all.
-/

namespace Gateway

/-- The client that a line of the trace says was closed. -/
def Trace.closing? : Trace → Option Target
  | .closed t => some t
  | _ => none

namespace Switchboard

/-- The clients that were closed, in order. -/
def closed (b : Switchboard) : List Target :=
  b.trace.reverse.filterMap Trace.closing?

/-! ## What Calls Leave Alone -/

theorem closed_congr {b c : Switchboard} (h : c.trace = b.trace) : c.closed = b.closed := by
  unfold closed
  rw [h]

theorem closed_note (b : Switchboard) (t : Trace) :
    (b.note t).closed = b.closed ++ (t.closing?).toList := by
  cases t <;> simp [closed, note, Trace.closing?]

theorem finish_closed (b : Switchboard) (f : Flight) (result : CallResult) (answered : Bool) :
    (b.finish f result answered).closed = b.closed := by
  cases answered with
  | false => exact closed_congr (by simp [finish])
  | true =>
      have hnote : (b.note (.finished f.client)).closed = b.closed := by
        rw [closed_note]
        exact List.append_nil _
      exact (closed_congr (by simp [finish])).trans hnote

theorem hand_closed (b : Switchboard) (layers : Layers) (index : Nat) (line : Line) (call : Call)
    (now order : Nat) : (b.hand layers index line call now order).1.closed = b.closed := by
  have hhanded : (b.handed index line call).closed = b.closed :=
    (closed_note b (call.arrival line.target)).trans (List.append_nil _)
  rcases hand_cases b layers index line call now order with
    ⟨result, answered, _, hhand⟩ | ⟨_, hhand⟩
  · rw [hhand]
    exact (finish_closed _ _ _ _).trans hhanded
  · rw [hhand]
    exact hhanded

theorem placeOn_closed (b : Switchboard) (layers : Layers) (index : Nat) (call : Call)
    (now order : Nat) (hlimited : layers.limited = true) :
    (b.placeOn layers index call now order).1.closed = b.closed := by
  cases hline : b.lines[index]? with
  | none => rw [placeOn_of_no_line b layers index call now order hline]
  | some line =>
      rcases placeOn_cases b layers index line call now order hlimited hline with
        ⟨_, hplace⟩ | ⟨hfree, hplace⟩
      · rw [hplace]
        exact closed_congr (count_trace _ _ _ _)
      · rw [hplace]
        exact hand_closed _ layers index line call now order

theorem place_closed (b : Switchboard) (target : Target) (kind : CallKind) (pattern : String)
    (payload : Json) (timeout now order : Nat) :
    (b.place target kind pattern payload timeout now order).1.closed = b.closed := by
  rcases place_cases b target kind pattern payload timeout now order with
    ⟨_, hplace⟩ | ⟨index, line, _, _, hplace⟩
  · rw [hplace]
  · rw [hplace]
    exact placeOn_closed { b with nextCall := b.nextCall + 1 } .full index _ now order rfl

theorem land_closed (b : Switchboard) (n now : Nat) : (b.land n now).1.closed = b.closed := by
  cases hf : b.flight? n with
  | none => rw [land_of_no_flight b n now hf]
  | some f =>
      cases hout : f.outcome? now with
      | none => rw [land_of_pending b n now f hf hout]
      | some out =>
          rw [land_of_due b n now f out.1 out.2 hf hout]
          exact finish_closed (b.dismiss n) f out.1 out.2

theorem abandon_closed (b : Switchboard) (n : Nat) : (b.abandon n).closed = b.closed := by
  cases hf : b.flight? n with
  | none => rw [abandon_of_no_flight b n hf]
  | some f =>
      rw [abandon_of_flight b n f hf]
      exact closed_congr (giveBack_trace (b.dismiss n) f.holdsPermit)

/-- No call closes a client, and none changes which backend is behind which client. -/
theorem turn_closed {b c : Switchboard} (h : Turn b c) :
    c.closed = b.closed ∧ c.backends = b.backends := by
  cases h with
  | start layers index call now order hlimited _ =>
      exact ⟨placeOn_closed b layers index call now order hlimited,
        placeOn_backends b layers index call now order⟩
  | route target kind pattern payload timeout now order _ =>
      exact ⟨place_closed b target kind pattern payload timeout now order,
        place_backends b target kind pattern payload timeout now order⟩
  | land n now => exact ⟨land_closed b n now, backends_congr (land_lines b n now)⟩
  | abandon n => exact ⟨abandon_closed b n, backends_congr (abandon_lines b n)⟩

/-- Closing all clients closes each of them, backwards, whether or not that fails. -/
theorem close_closed (b : Switchboard) : b.close.closed = b.closed ++ b.targets.reverse := by
  have hnotes : ∀ (lines : List Line) (c : Switchboard),
      (lines.foldl (fun b l => b.note (.closed l.target)) c).closed
        = c.closed ++ lines.map Line.target := by
    intro lines
    induction lines with
    | nil => exact fun c => (List.append_nil c.closed).symm
    | cons l lines ih =>
        intro c
        rw [List.foldl_cons, ih, closed_note, List.append_assoc]
        rfl
  unfold targets
  rw [← List.map_reverse]
  exact hnotes b.lines.reverse b

end Switchboard

end Gateway

