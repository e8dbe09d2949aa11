import Gateway.Proofs.Rehearsal.Calls
import Gateway.Proofs.Rehearsal.Steadiness

/-!
# What a Rehearsal Does to Its Switchboard

A rehearsal does many things, and few of them get as far as the permits and the flights. Calls are
placed, flights are looked at or given up, and all else leaves both alone. So whatever is to be
shown of permits and flights in every state of a rehearsal has to be shown for these moves only, and
not for all that a rehearsal may be doing when it makes them (`turn_moves`).

What is shown here of them is that permits cover flights: as many permits are out as there are
flights that hold one, or more. Hence a flight that ends does give a permit back, and is not the one
flight too many that finds all of them back already. That the two numbers are the same is a matter
of what numbers the flights have, and nothing here needs it.

## Main definitions

* `Switchboard.Move`, `Switchboard.Moves`: What is done to permits and flights.
* `Switchboard.holders`, `Switchboard.Covered`: Permits cover flights.

## Theorems

* `Switchboard.covered_moves`: The cover is kept.
* `Switchboard.free_release`: A flight that ends gives a permit back.
* `Rehearsal.work_moves`, `Rehearsal.start_moves`, `Rehearsal.turn_moves`: Whatever a rehearsal does
  is moves of its switchboard.
* `Rehearsal.covered_of_reachable`: The cover, in every reachable state.
-/

namespace Gateway

namespace Switchboard

/-- What is done to permits and flights. -/
inductive Move : Switchboard → Switchboard → Prop
  /-- A call is placed on a line, through any layers. -/
  | place (b : Switchboard) (layers : Layers) (index : Nat) (call : Call) (now order : Nat) :
      Move b (b.placeOn layers index call now order).1
  /-- A flight is looked at, and ends if it is due. -/
  | land (b : Switchboard) (n now : Nat) : Move b (b.land n now).1
  /-- A flight is given up. -/
  | abandon (b : Switchboard) (n : Nat) : Move b (b.abandon n)
  /-- Something else happens. -/
  | aside (b c : Switchboard) (hpermits : c.permits = b.permits)
      (hflights : c.flights = b.flights) : Move b c

/-- Any number of moves. -/
def Moves : Switchboard → Switchboard → Prop :=
  Relation.ReflTransGen Move

/-- How many flights hold a permit. -/
def holders (b : Switchboard) : Nat :=
  b.flights.countP fun e => e.2.holdsPermit

/-- Every flight that holds a permit holds one that is out. -/
def Covered (b : Switchboard) : Prop :=
  b.holders ≤ b.permits.taken

section Cover

variable {b c d : Switchboard}

theorem Moves.refl (b : Switchboard) : Moves b b :=
  Relation.ReflTransGen.refl

theorem Moves.trans (h : Moves b c) (h' : Moves c d) : Moves b d :=
  Relation.ReflTransGen.trans h h'

theorem Move.moves (h : Move b c) : Moves b c :=
  Relation.ReflTransGen.single h

theorem moves_aside (hpermits : c.permits = b.permits) (hflights : c.flights = b.flights) :
    Moves b c :=
  (Move.aside b c hpermits hflights).moves

theorem moves_place (b : Switchboard) (target : Target) (kind : CallKind) (pattern : String)
    (payload : Json) (timeout now order : Nat) :
    Moves b (b.place target kind pattern payload timeout now order).1 := by
  rcases place_cases b target kind pattern payload timeout now order with
    ⟨_, hplace⟩ | ⟨index, line, _, _, hplace⟩
  · rw [hplace]
    exact .refl b
  · -- The number of the call is no matter of permits and flights.
    have hnumbered : Moves b { b with nextCall := b.nextCall + 1 } := moves_aside rfl rfl
    rw [hplace]
    exact hnumbered.trans (Move.place _ .full index _ now order).moves

theorem moves_close (b : Switchboard) : Moves b b.close := by
  rcases close_eq b with ⟨trace, hclose, _⟩
  rw [hclose]
  exact moves_aside rfl rfl

/-! ## The Cover -/

theorem holders_congr (hflights : c.flights = b.flights) : c.holders = b.holders := by
  unfold holders
  rw [hflights]

/-- A call whose client has it holds a permit as long as it is under way, if it was let in with
    one. -/
theorem covered_hand (b : Switchboard) (layers : Layers) (index : Nat) (line : Line) (call : Call)
    (now order : Nat) (h : b.holders + (if layers.limited then 1 else 0) ≤ b.permits.taken) :
    Covered (b.hand layers index line call now order).1 := by
  unfold Covered
  rcases hand_cases b layers index line call now order with
    ⟨result, answered, _, hhand⟩ | ⟨_, hhand⟩
  · -- It has settled, and what it held is back.
    have hholds : (Flight.ofCall layers line call now order).holdsPermit = layers.limited := rfl
    have hsame : (b.handed index line call).holders = b.holders := holders_congr rfl
    rw [hhand, holders_congr (finish_flights _ _ _ _), hsame, finish_permits, hholds]
    cases hlimited : layers.limited with
    | true =>
        rw [hlimited, if_pos rfl] at h
        simp only [if_true, handed, note, Permits.release]
        omega
    | false =>
        rw [hlimited] at h
        exact h
  · rw [hhand, holders]
    simp only [List.countP_append, List.countP_singleton]
    exact h

theorem covered_placeOn (b : Switchboard) (layers : Layers) (index : Nat) (call : Call)
    (now order : Nat) (h : Covered b) : Covered (b.placeOn layers index call now order).1 := by
  cases hline : b.lines[index]? with
  | none =>
      rw [placeOn_of_no_line b layers index call now order hline]
      exact h
  | some line =>
      by_cases hlimited : layers.limited = true
      · rcases placeOn_cases b layers index line call now order hlimited hline with
          ⟨_, hplace⟩ | ⟨hfree, hplace⟩
        · rw [hplace, Covered, holders_congr (count_flights b _ _ _), count_permits]
          exact h
        · rw [hplace]
          refine covered_hand _ layers index line call now order ?_
          rw [if_pos hlimited]
          exact Nat.succ_le_succ h
      · rw [placeOn_of_not_limited b layers index line call now order hlimited hline]
        refine covered_hand b layers index line call now order ?_
        rw [if_neg hlimited]
        exact h

/-- A flight that goes is one holder less, if it held a permit. -/
theorem holders_dismiss (b : Switchboard) (n : Nat) (f : Flight) (hf : b.flight? n = some f) :
    (b.dismiss n).holders + (if f.holdsPermit then 1 else 0) ≤ b.holders := by
  have hsplit := List.countP_eq_countP_filter_add b.flights (fun e => e.2.holdsPermit)
    (fun e => e.1 != n)
  have hrest : (if f.holdsPermit then 1 else 0)
      ≤ (b.flights.filter fun e => !(e.1 != n)).countP fun e => e.2.holdsPermit := by
    split
    · rename_i hholds
      refine List.countP_pos_iff.mpr ⟨(n, f), ?_, hholds⟩
      exact List.mem_filter.mpr ⟨mem_of_flight? b n f hf, by simp⟩
    · exact Nat.zero_le _
  simp only [holders, dismiss]
  omega

/-- A flight that ends gives back what it held. -/
theorem covered_ends (h : Covered b) (n : Nat) (f : Flight) (hf : b.flight? n = some f)
    (hpermits : c.permits = if f.holdsPermit then b.permits.release else b.permits)
    (hflights : c.flights = (b.dismiss n).flights) : Covered c := by
  have hfewer := holders_dismiss b n f hf
  unfold Covered at h ⊢
  rw [holders_congr hflights, hpermits]
  split at hfewer
  · rename_i hholds
    rw [if_pos hholds]
    simp only [Permits.release]
    omega
  · rename_i hholds
    rw [if_neg hholds]
    omega

theorem covered_move (hmove : Move b c) (h : Covered b) : Covered c := by
  cases hmove with
  | place layers index call now order => exact covered_placeOn b layers index call now order h
  | land n now =>
      cases hf : b.flight? n with
      | none =>
          rw [land_of_no_flight b n now hf]
          exact h
      | some f =>
          cases hout : f.outcome? now with
          | none =>
              rw [land_of_pending b n now f hf hout]
              exact h
          | some out =>
              rw [land_of_due b n now f out.1 out.2 hf hout]
              exact covered_ends h n f hf (finish_permits _ _ _ _) (finish_flights _ _ _ _)
  | abandon n =>
      cases hf : b.flight? n with
      | none =>
          rw [abandon_of_no_flight b n hf]
          exact h
      | some f =>
          rw [abandon_of_flight b n f hf]
          exact covered_ends h n f hf (giveBack_permits _ _) (giveBack_flights _ _)
  | aside c hpermits hflights =>
      rw [Covered, holders_congr hflights, hpermits]
      exact h

theorem covered_moves (hmoves : Moves b c) (h : Covered b) : Covered c := by
  induction hmoves with
  | refl => exact h
  | tail _ hmove ih => exact covered_move hmove ih

/-- As long as there is a flight that holds a permit, giving one back makes one more free. -/
theorem free_release (h : Covered b) (n : Nat) (f : Flight) (hf : b.flight? n = some f)
    (hholds : f.holdsPermit = true) : b.permits.release.free = b.permits.free + 1 := by
  have hfewer := holders_dismiss b n f hf
  have hle := b.permits.taken_le
  unfold Covered at h
  rw [if_pos hholds] at hfewer
  simp only [Permits.free, Permits.release]
  omega

end Cover

end Switchboard

namespace Rehearsal

open Switchboard

section Parts

variable {r s : Rehearsal}

/-! ## Working -/

theorem landLegs_moves (r : Rehearsal) (legs : List Leg) :
    Moves r.board (r.landLegs legs).1.board := by
  induction legs generalizing r with
  | nil => exact .refl _
  | cons leg legs ih =>
      rcases leg with ⟨target, result | n⟩
      · exact ih r
      · exact (Move.land r.board n r.now).moves.trans
          (ih { r with board := (r.board.land n r.now).1 })

theorem abandonLegs_moves (r : Rehearsal) (legs : List Leg) :
    Moves r.board (r.abandonLegs legs).board := by
  induction legs generalizing r with
  | nil => exact .refl _
  | cons leg legs ih =>
      rcases leg with ⟨target, result | n⟩
      · exact ih r
      · exact (Move.abandon r.board n).moves.trans (ih { r with board := r.board.abandon n })

theorem leave_board (r : Rehearsal) : r.leave.board = r.board := by
  rcases leave_eq r with ⟨ready, hleave⟩
  rw [hleave]
  rfl

theorem withdraw_moves (r : Rehearsal) (legs : List Leg) (visit : Visit) :
    Moves r.board (r.withdraw legs visit).board := by
  have habandon := abandonLegs_moves r legs
  unfold withdraw
  simp only
  split
  · rw [leave_board]
    exact habandon
  · exact habandon

theorem reply_moves (r : Rehearsal) (visit : Visit) (response : Http.Response) :
    Moves r.board (r.reply visit response).1.board := by
  rcases respond_eq r visit response with ⟨metrics, ready, hrespond⟩
  unfold reply
  rw [hrespond]
  exact moves_aside rfl rfl

theorem acts_moves (actions : List Server.Action) (r : Rehearsal) :
    Moves r.board (actions.foldl act r).board := by
  induction actions generalizing r with
  | nil => exact .refl _
  | cons a actions ih =>
      have hact : Moves r.board (r.act a).board := by
        cases a with
        | closeClients => exact moves_close r.board
        | say level message | subscribe | setReady | trigger => exact .refl _
      exact hact.trans (ih (r.act a))

theorem occur_moves (r : Rehearsal) (o : Server.Occurrence) : Moves r.board (r.occur o).board := by
  unfold occur
  cases r.stage with
  | none => exact .refl _
  | some stage => exact acts_moves _ { r with stage := some (stage.next o).1 }

theorem finishServing_moves (r : Rehearsal) (limit : Timer) :
    Moves r.board (r.finishServing limit).1.board := by
  unfold finishServing
  split
  · exact .refl _
  · exact occur_moves r .finished

theorem work_moves (r : Rehearsal) (errand : Errand) : Moves r.board (r.work errand).1.board := by
  cases errand with
  | calls legs purpose visit =>
      have hland := landLegs_moves r legs
      cases visit with
      | none =>
          simp only [work]
          split <;> exact hland
      | some visit =>
          rcases work_visit_cases r legs purpose visit with
            ⟨e, _, _, hwork⟩ | ⟨outcomes, _, hwork⟩ | hwork
          · rw [hwork]
            exact withdraw_moves r legs visit
          · rw [hwork]
            exact hland.trans (reply_moves _ visit _)
          · rw [hwork]
            exact hland
  | letGo name timer =>
      simp only [work]
      split
      · split
        · rw [leave_board]
          exact .refl _
        · exact .refl _
      · exact .refl _
  | drain limit =>
      simp only [work]
      split
      · exact .refl _
      · split <;> exact .refl _
  | shutdown limit =>
      simp only [work]
      split
      · split
        · exact (occur_moves (r.withLifecycle r.lifecycle.settle.1) .idle).trans
            (finishServing_moves _ limit)
        · split
          · exact occur_moves r .overdue
          · exact .refl _
      · exact finishServing_moves r limit
      · exact .refl _

theorem release_moves (r : Rehearsal) (errand : Errand) :
    Moves r.board (r.release errand).board := by
  cases errand with
  | calls legs purpose visit =>
      cases visit with
      | none => exact abandonLegs_moves r legs
      | some visit => exact withdraw_moves r legs visit
  | letGo name timer | drain limit | shutdown limit => exact .refl _

/-! ## Starting -/

theorem place_moves (r : Rehearsal) (kind : CallKind) (target : Target) (pattern : String)
    (payload : Json) (timeout : Nat) :
    Moves r.board (r.place kind target pattern payload timeout).1.board :=
  moves_place r.board target kind pattern payload timeout r.now r.orders

theorem placeAll_moves (kind : CallKind) (pattern : String) (payload : Json) (timeout : Nat)
    (r : Rehearsal) (targets : List Target) :
    Moves r.board (placeAll kind pattern payload timeout r targets).1.board := by
  induction targets generalizing r with
  | nil => exact .refl _
  | cons target targets ih =>
      exact (place_moves r kind target pattern payload timeout).trans
        (ih (r.place kind target pattern payload timeout).1)

theorem inquire_moves (r : Rehearsal) (inquiry : Inquiry) :
    Moves r.board (r.inquire inquiry).1.board := by
  cases inquiry with
  | send target pattern payload => exact place_moves r .request target pattern payload _
  | broadcast pattern payload => exact placeAll_moves .event pattern payload _ r _
  | probe timeout => exact placeAll_moves .request _ _ timeout r _

theorem visit_moves (r : Rehearsal) (q : Http.Request) : Moves r.board (r.visit q).1.board := by
  by_cases hletsIn : r.LetsIn q
  · rw [visit_of_letsIn r q hletsIn]
    unfold takeIn
    rcases r.api.receive r.now r.board.targets r.board.metrics.exposition q with
      ⟨api, response | inquiry, counted⟩
    · exact reply_moves { r.numbered with api := api } (r.pending q counted) response
    · exact (inquire_moves { r.numbered with api := api } inquiry).trans (work_moves _ _)
  · rcases visit_of_not_letsIn r q hletsIn with ⟨_, timers, response, _, _, hvisit⟩
    rw [hvisit]
    exact .refl _

/-- Whatever is started, the switchboard sees no more of it than calls that are placed and looked
    at. -/
theorem start_moves (r : Rehearsal) (c : Command) : Moves r.board (r.start c).1.board := by
  cases c with
  | place kind target pattern payload timeout =>
      exact (place_moves r kind target pattern payload _).trans (work_moves _ (.calls _ _ none))
  | placeOn layers line context pattern payload =>
      have hplace : Moves r.board
          (r.board.placeOn layers line ⟨context, pattern, payload⟩ r.now r.orders).1 :=
        (Move.place r.board layers line _ r.now r.orders).moves
      exact hplace.trans (work_moves
        { r with
          board := (r.board.placeOn layers line ⟨context, pattern, payload⟩ r.now r.orders).1
          orders := r.orders + 2 } (.calls [⟨context.target, _⟩] _ none))
  | broadcast pattern payload timeout =>
      exact (placeAll_moves .event pattern payload _ r _).trans (work_moves _ (.calls _ _ none))
  | probe timeout =>
      exact (placeAll_moves .request _ _ timeout r _).trans (work_moves _ (.calls _ _ none))
  | close => exact moves_close r.board
  | hold name =>
      simp only [start, shows]
      split
      · rw [leave_board]
        exact .refl _
      · exact .refl _
  | letGo name after =>
      cases after with
      | none => exact work_moves r (.letGo name _)
      | some ms => exact work_moves (r.timer ms).1 (.letGo name _)
  | look name =>
      simp only [start, shows]
      split <;> exact .refl _
  | unsubscribe name =>
      simp only [start, shows]
      split <;> exact .refl _
  | drain limit => exact work_moves (r.timer limit).1 (.drain _)
  | request received =>
      cases received with
      | error fault => exact .refl _
      | ok sent =>
          rw [start_request]
          cases r.received? sent with
          | some q => exact visit_moves r q
          | none => exact .refl _
  | stop limit =>
      exact (occur_moves r .stop).trans (work_moves ((r.occur .stop).timer limit).1 (.shutdown _))
  | none | targets | wiring | free | setReady | trigger | phase | subscribe name | sweep longest
    | tracked => exact .refl _

/-! ## Turns -/

theorem setProgress_board (r : Rehearsal) (n : Nat) (p : Progress) :
    (r.setProgress n p).board = r.board :=
  (setProgress_keeps r n p).2.2.1

theorem turn_moves (hturn : Turn r s) : Moves r.board s.board := by
  cases hturn with
  | enlist name c => exact start_moves r c
  | work n errand herrand =>
      rw [setProgress_board]
      exact work_moves r errand
  | release n errand herrand =>
      rw [setProgress_board]
      exact release_moves r errand
  | take n a ha herrand =>
      rw [setProgress_board]
      exact .refl _
  | occur o => exact occur_moves r o
  | clock now | wall wall | queue ready => exact .refl _

theorem covered_of_reachable (r : Rehearsal) (h : Reachable r) : Covered r.board := by
  rcases h with ⟨first, hfresh, hreaches⟩
  induction hreaches with
  | refl =>
      unfold Covered holders
      rw [hfresh.2.2.2]
      exact Nat.zero_le _
  | tail _ hturn ih => exact covered_moves (turn_moves hturn) ih

end Parts

end Rehearsal

end Gateway
