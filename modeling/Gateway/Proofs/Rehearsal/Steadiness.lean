import Gateway.Proofs.Rehearsal.UnderWay
import Gateway.Proofs.Switchboard.Flights

/-!
# What Stays as It Is

A rehearsal is set up once, with backends and with layers around the interface, and keeps both for
good. Only the clock moves the clock. And what works asks nothing of any client: calls reach clients
when a command is started, and never when something goes on that was started before. These are
frames for the proofs about time, which need to know of a turn mostly what it leaves alone.

The stage of a server is a case of its own. A server that works its way to the end leaves the stage
in which it drains and does not come back to it, so the timer that ends the draining is not set
again by anything but a command.

A request has a time limit only if there are layers around the interface to look at it. A limit that
nobody looks at would be due for ever, and the clock would stand still at it.

## Main definitions

* `Rehearsal.Fixed`: The clock, the layers and the backends are as they were.
* `Rehearsal.Steady`: Beside that nobody was asked and no server drains that did not.
* `Errand.visit?`, `Progress.visit?`: The request that waits, if one does.
* `Errand.limit?`, `Progress.limit?`: Its time limit.

## Theorems

* `Rehearsal.work_steady`, `Rehearsal.release_steady`: What works or is given up asks nothing.
* `Rehearsal.start_fixed`: Starting a command moves no clock.
* `Rehearsal.setup_reaches`: What a rehearsal is set up with stays.
* `Rehearsal.visit?_work`, `Rehearsal.visit?_start`: Where a request that waits comes from.
* `Rehearsal.limited_of_reachable`: A time limit is one that somebody looks at.
-/

namespace Gateway

/-- The request that waits for what is done, if there is one. -/
def Errand.visit? : Errand → Option Visit
  | .calls _ _ visit => visit
  | _ => none

/-- The request that waits for something that stands so. -/
def Progress.visit? : Progress → Option Visit
  | .running errand => errand.visit?
  | _ => none

/-- The time limit of a request that waits for its answer, if it has one. -/
def Errand.limit? (errand : Errand) : Option Timer :=
  errand.visit?.bind Visit.limit

/-- The time limit of something that stands so. -/
def Progress.limit? (progress : Progress) : Option Timer :=
  progress.visit?.bind Visit.limit

theorem Server.Stage.of_next_draining (s : Server.Stage) (o : Server.Occurrence) (ho : o ≠ .stop)
    (h : (s.next o).1 = .draining) : s = .draining := by
  cases o with
  | stop => exact absurd rfl ho
  | begin | idle | overdue | finished =>
      cases s with
      | idle isBound => cases isBound <;> exact absurd h (by decide)
      | failed | serving | finishing | ended => exact absurd h (by decide)
      | draining => rfl

namespace Rehearsal

/-- The clock, what was started, the layers around the interface and the backends are as they
    were. -/
structure Fixed (r s : Rehearsal) : Prop where
  now : s.now = r.now
  activities : s.activities = r.activities
  envelope : s.envelope = r.envelope
  backends : s.board.backends = r.board.backends

/-- Beside that no client was asked for anything, no server drains that did not before, and what was
    woken is woken still. -/
structure Steady (r s : Rehearsal) : Prop extends Fixed r s where
  asked : s.board.asked = r.board.asked
  stage : s.stage = some .draining → r.stage = some .draining
  ready : r.ready <+: s.ready

section Parts

variable {r s t : Rehearsal}

theorem Fixed.trans (h : Fixed r s) (h' : Fixed s t) : Fixed r t :=
  ⟨h'.now.trans h.now, h'.activities.trans h.activities, h'.envelope.trans h.envelope,
    h'.backends.trans h.backends⟩

theorem Steady.trans (h : Steady r s) (h' : Steady s t) : Steady r t :=
  ⟨h.toFixed.trans h'.toFixed, h'.asked.trans h.asked, fun hdrains => h.stage (h'.stage hdrains),
    h.ready.trans h'.ready⟩

theorem Steady.refl (r : Rehearsal) : Steady r r :=
  ⟨⟨rfl, rfl, rfl, rfl⟩, rfl, id, List.prefix_rfl⟩

/-! ## Working -/

theorem landLegs_steady (r : Rehearsal) (legs : List Leg) : Steady r (r.landLegs legs).1 := by
  induction legs generalizing r with
  | nil => exact .refl r
  | cons leg legs ih =>
      rcases leg with ⟨target, result | n⟩
      · exact ih r
      · have hland : Steady r { r with board := (r.board.land n r.now).1 } :=
          ⟨⟨rfl, rfl, rfl, Switchboard.backends_congr (Switchboard.land_lines r.board n r.now)⟩,
            Switchboard.land_asked r.board n r.now, id, List.prefix_rfl⟩
        exact hland.trans (ih _)

theorem abandonLegs_steady (r : Rehearsal) (legs : List Leg) : Steady r (r.abandonLegs legs) := by
  induction legs generalizing r with
  | nil => exact .refl r
  | cons leg legs ih =>
      rcases leg with ⟨target, result | n⟩
      · exact ih r
      · have habandon : Steady r { r with board := r.board.abandon n } :=
          ⟨⟨rfl, rfl, rfl, Switchboard.backends_congr (Switchboard.abandon_lines r.board n)⟩,
            Switchboard.abandon_asked r.board n, id, List.prefix_rfl⟩
        exact habandon.trans (ih _)

theorem leave_steady (r : Rehearsal) : Steady r r.leave := by
  unfold leave
  simp only
  split
  · exact ⟨⟨rfl, rfl, rfl, rfl⟩, rfl, id, List.prefix_append _ _⟩
  · exact ⟨⟨rfl, rfl, rfl, rfl⟩, rfl, id, List.prefix_rfl⟩

theorem withdraw_steady (r : Rehearsal) (legs : List Leg) (visit : Visit) :
    Steady r (r.withdraw legs visit) := by
  unfold withdraw
  simp only
  split
  · exact (abandonLegs_steady r legs).trans (leave_steady _)
  · exact abandonLegs_steady r legs

theorem reply_steady (r : Rehearsal) (visit : Visit) (response : Http.Response) :
    Steady r (r.reply visit response).1 := by
  have hleave : Steady r (if visit.counted then r.leave else r) := by
    split
    · exact leave_steady r
    · exact .refl r
  unfold reply respond
  exact hleave.trans ⟨⟨rfl, rfl, rfl, rfl⟩, rfl, id, List.prefix_rfl⟩

theorem acts_steady (actions : List Server.Action) (r : Rehearsal) :
    Steady r (actions.foldl act r) := by
  induction actions generalizing r with
  | nil => exact .refl r
  | cons a actions ih =>
      have hact : Steady r (r.act a) := by
        cases a with
        | closeClients =>
            rcases Switchboard.close_eq r.board with ⟨trace, hclose, hasked⟩
            refine ⟨⟨rfl, rfl, rfl, Switchboard.backends_congr ?_⟩, hasked, id, List.prefix_rfl⟩
            simp only [act, hclose]
        | say level message | subscribe | setReady | trigger =>
            exact ⟨⟨rfl, rfl, rfl, rfl⟩, rfl, id, List.prefix_rfl⟩
      exact hact.trans (ih (r.act a))

theorem occur_of_no_stage (r : Rehearsal) (o : Server.Occurrence) (h : r.stage = none) :
    r.occur o = r := by
  unfold occur
  rw [h]

theorem occur_of_stage (r : Rehearsal) (o : Server.Occurrence) (stage : Server.Stage)
    (h : r.stage = some stage) : Steady { r with stage := some (stage.next o).1 } (r.occur o) := by
  have hacts := acts_steady (stage.next o).2 { r with stage := some (stage.next o).1 }
  unfold occur
  rw [h]
  exact hacts

theorem occur_fixed (r : Rehearsal) (o : Server.Occurrence) : Fixed r (r.occur o) := by
  cases hstage : r.stage with
  | none =>
      rw [occur_of_no_stage r o hstage]
      exact (Steady.refl r).toFixed
  | some stage =>
      have hoccur := occur_of_stage r o stage hstage
      exact ⟨hoccur.now, hoccur.activities, hoccur.envelope, hoccur.backends⟩

/-- Nothing but being told to stop lets a server drain. -/
theorem occur_steady (r : Rehearsal) (o : Server.Occurrence) (ho : o ≠ .stop) :
    Steady r (r.occur o) := by
  cases hstage : r.stage with
  | none =>
      rw [occur_of_no_stage r o hstage]
      exact .refl r
  | some stage =>
      have hoccur := occur_of_stage r o stage hstage
      refine ⟨occur_fixed r o, hoccur.asked, fun hdrains => ?_, hoccur.ready⟩
      rw [hstage, stage.of_next_draining o ho (Option.some.inj (hoccur.stage hdrains))]

theorem finishServing_steady (r : Rehearsal) (limit : Timer) :
    Steady r (r.finishServing limit).1 := by
  unfold finishServing
  split
  · exact .refl r
  · exact occur_steady r .finished (by decide)

/-- Something that works asks nothing of any client, and moves no clock. -/
theorem work_steady (r : Rehearsal) (errand : Errand) : Steady r (r.work errand).1 := by
  cases errand with
  | calls legs purpose visit =>
      have hland := landLegs_steady r legs
      cases visit with
      | none =>
          simp only [work]
          split <;> exact hland
      | some visit =>
          rcases work_visit_cases r legs purpose visit with
            ⟨e, _, _, hwork⟩ | ⟨outcomes, _, hwork⟩ | hwork
          · rw [hwork]
            exact withdraw_steady r legs visit
          · rw [hwork]
            exact hland.trans (reply_steady _ visit _)
          · rw [hwork]
            exact hland
  | letGo name timer =>
      simp only [work]
      split
      · split
        · exact (show Steady r { r with held := r.held.erase name } from
            ⟨⟨rfl, rfl, rfl, rfl⟩, rfl, id, List.prefix_rfl⟩).trans (leave_steady _)
        · exact .refl r
      · exact .refl r
  | drain limit =>
      simp only [work]
      split
      · exact ⟨⟨rfl, rfl, rfl, rfl⟩, rfl, id, List.prefix_rfl⟩
      · split <;> exact .refl r
  | shutdown limit =>
      simp only [work]
      split
      · split
        · have hsettle : Steady r (r.withLifecycle r.lifecycle.settle.1) :=
            ⟨⟨rfl, rfl, rfl, rfl⟩, rfl, id, List.prefix_rfl⟩
          exact (hsettle.trans (occur_steady _ .idle (by decide))).trans
            (finishServing_steady _ limit)
        · split
          · exact occur_steady r .overdue (by decide)
          · exact .refl r
      · exact finishServing_steady r limit
      · exact .refl r

theorem release_steady (r : Rehearsal) (errand : Errand) : Steady r (r.release errand) := by
  cases errand with
  | calls legs purpose visit =>
      cases visit with
      | none => exact abandonLegs_steady r legs
      | some visit => exact withdraw_steady r legs visit
  | letGo name timer | drain limit | shutdown limit => exact .refl r

/-! ## Starting -/

theorem placeAll_fixed (kind : CallKind) (pattern : String) (payload : Json) (timeout : Nat)
    (r : Rehearsal) (targets : List Target) :
    Fixed r (placeAll kind pattern payload timeout r targets).1 := by
  induction targets generalizing r with
  | nil => exact (Steady.refl r).toFixed
  | cons target targets ih =>
      have hplace : Fixed r (r.place kind target pattern payload timeout).1 :=
        ⟨rfl, rfl, rfl, Switchboard.place_backends r.board target kind pattern payload timeout r.now
          r.orders⟩
      exact hplace.trans (ih _)

theorem inquire_fixed (r : Rehearsal) (inquiry : Inquiry) : Fixed r (r.inquire inquiry).1 := by
  cases inquiry with
  | send target pattern payload =>
      exact placeAll_fixed .request pattern payload r.board.defaultTimeout r [target]
  | broadcast pattern payload => exact placeAll_fixed .event pattern payload _ r _
  | probe timeout => exact placeAll_fixed .request _ _ timeout r _

theorem visit_fixed (r : Rehearsal) (q : Http.Request) : Fixed r (r.visit q).1 := by
  by_cases hletsIn : r.LetsIn q
  · rw [visit_of_letsIn r q hletsIn]
    unfold takeIn
    rcases r.api.receive r.now r.board.targets r.board.metrics.exposition q with
      ⟨api, response | inquiry, counted⟩
    · have hreply := reply_steady { r.numbered with api := api } (r.pending q counted) response
      exact ⟨hreply.now, hreply.activities, hreply.envelope, hreply.backends⟩
    · have hinquire := inquire_fixed { r.numbered with api := api } inquiry
      have hwork := work_steady ({ r.numbered with api := api }.inquire inquiry).1
        (.calls ({ r.numbered with api := api }.inquire inquiry).2.1
          ({ r.numbered with api := api }.inquire inquiry).2.2 (some (r.pending q counted)))
      have hconsult := hinquire.trans hwork.toFixed
      exact ⟨hconsult.now, hconsult.activities, hconsult.envelope, hconsult.backends⟩
  · rcases visit_of_not_letsIn r q hletsIn with ⟨_, timers, response, _, _, hvisit⟩
    rw [hvisit]
    exact ⟨rfl, rfl, rfl, rfl⟩

/-- Starting a command moves no clock and changes no backend. -/
theorem start_fixed (r : Rehearsal) (c : Command) : Fixed r (r.start c).1 := by
  cases c with
  | place kind target pattern payload timeout =>
      exact (placeAll_fixed kind pattern payload (timeout.getD r.board.defaultTimeout) r
        [target]).trans (work_steady _ _).toFixed
  | placeOn layers line context pattern payload =>
      have hplace : Fixed r
          { r with
            board := (r.board.placeOn layers line ⟨context, pattern, payload⟩ r.now r.orders).1
            orders := r.orders + 2 } :=
        ⟨rfl, rfl, rfl, Switchboard.placeOn_backends r.board layers line _ r.now r.orders⟩
      exact hplace.trans (work_steady _ _).toFixed
  | broadcast pattern payload timeout =>
      exact (placeAll_fixed .event pattern payload _ r _).trans (work_steady _ _).toFixed
  | probe timeout => exact (placeAll_fixed .request _ _ timeout r _).trans (work_steady _ _).toFixed
  | close =>
      rcases Switchboard.close_eq r.board with ⟨trace, hclose, _⟩
      refine ⟨rfl, rfl, rfl, Switchboard.backends_congr ?_⟩
      simp only [start, hclose]
  | hold name =>
      simp only [start, shows]
      split
      · have hleave := leave_steady (r.withLifecycle r.lifecycle.enter)
        exact ⟨hleave.now, hleave.activities, hleave.envelope, hleave.backends⟩
      · exact ⟨rfl, rfl, rfl, rfl⟩
  | letGo name after =>
      cases after with
      | none => exact (work_steady r (.letGo name _)).toFixed
      | some ms =>
          have hwork := work_steady (r.timer ms).1 (.letGo name (r.timer ms).2)
          exact ⟨hwork.now, hwork.activities, hwork.envelope, hwork.backends⟩
  | look name =>
      simp only [start, shows]
      split <;> exact ⟨rfl, rfl, rfl, rfl⟩
  | unsubscribe name =>
      simp only [start, shows]
      split <;> exact ⟨rfl, rfl, rfl, rfl⟩
  | drain limit =>
      have hwork := work_steady (r.timer limit).1 (.drain (r.timer limit).2)
      exact ⟨hwork.now, hwork.activities, hwork.envelope, hwork.backends⟩
  | request received =>
      cases received with
      | error fault => exact ⟨rfl, rfl, rfl, rfl⟩
      | ok sent =>
          rw [start_request]
          cases r.received? sent with
          | some q => exact visit_fixed r q
          | none => exact ⟨rfl, rfl, rfl, rfl⟩
  | stop limit =>
      have hwork := work_steady ((r.occur .stop).timer limit).1
        (.shutdown ((r.occur .stop).timer limit).2)
      exact (occur_fixed r .stop).trans
        ⟨hwork.now, hwork.activities, hwork.envelope, hwork.backends⟩
  | none | targets | wiring | free | setReady | trigger | phase | subscribe name | sweep longest
    | tracked => exact ⟨rfl, rfl, rfl, rfl⟩

/-- What is started is the activity that comes after those there were. -/
theorem enlist_activity (r : Rehearsal) (name : Option String) (c : Command) :
    (r.enlist name c).activities[r.activities.length]? = some ⟨name, progressOf (r.start c).2⟩ := by
  unfold enlist
  simp only [(start_fixed r c).activities]
  exact List.getElem?_concat_length

/-! ## Turns -/

/-- How something that was started stands is no matter of the clock or the layers or the board. -/
theorem setProgress_keeps (r : Rehearsal) (n : Nat) (p : Progress) :
    (r.setProgress n p).now = r.now ∧ (r.setProgress n p).envelope = r.envelope
      ∧ (r.setProgress n p).board = r.board ∧ (r.setProgress n p).stage = r.stage
      ∧ (r.setProgress n p).ready = r.ready := by
  rcases setProgress_eq r n p with ⟨activities, hset⟩
  rw [hset]
  exact ⟨rfl, rfl, rfl, rfl, rfl⟩

/-- An activity that runs works, and what was woken stays woken. -/
theorem run_of_errand (r : Rehearsal) (n : Nat) (errand : Errand) (h : r.errand? n = some errand) :
    ∃ ready, r.ready <+: ready ∧ r.run n
      = { (r.work errand).1.setProgress n (progressOf (r.work errand).2) with ready := ready } := by
  have hready := (work_steady r errand).ready
  have hset := (setProgress_keeps (r.work errand).1 n (progressOf (r.work errand).2)).2.2.2.2
  rw [← hset] at hready
  unfold run
  rw [h]
  simp only
  generalize r.work errand = did at hready hset
  rcases did with ⟨t, outcome | left⟩
  · simp only
    split
    · exact ⟨_, hready.trans (List.prefix_append _ _), rfl⟩
    · exact ⟨_, hready, rfl⟩
  · exact ⟨_, hready, rfl⟩

theorem setup_setProgress (n : Nat) (p : Progress) (h : Fixed r s) :
    (s.setProgress n p).envelope = r.envelope
      ∧ (s.setProgress n p).board.backends = r.board.backends := by
  rcases setProgress_keeps s n p with ⟨_, henvelope, hboard, _⟩
  rw [henvelope, hboard]
  exact ⟨h.envelope, h.backends⟩

/-- No turn changes a backend or a layer around the interface. -/
theorem setup_turn (hturn : Turn r s) :
    s.envelope = r.envelope ∧ s.board.backends = r.board.backends := by
  cases hturn with
  | enlist name c => exact ⟨(start_fixed r c).envelope, (start_fixed r c).backends⟩
  | work n errand herrand => exact setup_setProgress n _ (work_steady r errand).toFixed
  | release n errand herrand => exact setup_setProgress n _ (release_steady r errand).toFixed
  | take n a ha herrand => exact setup_setProgress n _ (Steady.refl r).toFixed
  | occur o => exact ⟨(occur_fixed r o).envelope, (occur_fixed r o).backends⟩
  | clock now | wall wall | queue ready => exact ⟨rfl, rfl⟩

theorem setup_reaches (h : Reaches r s) :
    s.envelope = r.envelope ∧ s.board.backends = r.board.backends := by
  induction h with
  | refl => exact ⟨rfl, rfl⟩
  | tail _ hturn ih =>
      rcases setup_turn hturn with ⟨henvelope, hbackends⟩
      exact ⟨henvelope.trans ih.1, hbackends.trans ih.2⟩

/-! ## Time Limits of Requests -/

/-- What is left of a request after it has worked waits for the same request. -/
theorem visit?_work (r : Rehearsal) (errand : Errand) (v : Visit)
    (h : (progressOf (r.work errand).2).visit? = some v) : errand.visit? = some v := by
  cases errand with
  | calls legs purpose visit =>
      cases visit with
      | none =>
          simp only [work] at h
          split at h <;> contradiction
      | some visit =>
          rcases work_visit_cases r legs purpose visit with
            ⟨e, _, _, hwork⟩ | ⟨outcomes, _, hwork⟩ | hwork
          · rw [hwork] at h
            contradiction
          · rw [hwork] at h
            contradiction
          · rw [hwork] at h
            exact h
  | letGo name timer =>
      simp only [work] at h
      split at h
      · split at h <;> contradiction
      · contradiction
  | drain limit =>
      simp only [work] at h
      split at h
      · contradiction
      · split at h <;> contradiction
  | shutdown limit =>
      have hfinish : ∀ s : Rehearsal, (progressOf (s.finishServing limit).2).visit? = none := by
        intro s
        unfold finishServing
        split <;> rfl
      simp only [work] at h
      split at h
      · split at h
        · rw [hfinish] at h
          contradiction
        · split at h <;> contradiction
      · rw [hfinish] at h
        contradiction
      · contradiction

/-- A request that waits for its answer once it is started was sent, received and let in. -/
theorem visit?_start (r : Rehearsal) (c : Command) (v : Visit)
    (h : (progressOf (r.start c).2).visit? = some v) :
    ∃ sent q counted, c = .request (.ok sent) ∧ r.received? sent = some q ∧ r.LetsIn q
      ∧ v = r.pending q counted := by
  have hnone : ∀ (s : Rehearsal) (errand : Errand), errand.visit? = none →
      (progressOf (s.work errand).2).visit? ≠ some v := fun s errand herrand hvisit =>
    absurd (herrand.symm.trans (visit?_work s errand v hvisit)) (Option.some_ne_none v).symm
  cases c with
  | request received =>
      cases received with
      | error fault => contradiction
      | ok sent =>
          rw [start_request] at h
          cases hreceived : r.received? sent with
          | none =>
              rw [hreceived] at h
              contradiction
          | some q =>
              rw [hreceived, Option.elim_some] at h
              by_cases hletsIn : r.LetsIn q
              · rw [visit_of_letsIn r q hletsIn] at h
                unfold takeIn at h
                rcases hreceive : r.api.receive r.now r.board.targets r.board.metrics.exposition q
                  with ⟨api, response | inquiry, counted⟩
                · rw [hreceive] at h
                  contradiction
                · rw [hreceive] at h
                  have hpending := visit?_work _ _ v h
                  exact ⟨sent, q, counted, rfl, hreceived, hletsIn,
                    (Option.some.inj hpending).symm⟩
              · rcases visit_of_not_letsIn r q hletsIn with ⟨_, timers, response, _, _, hvisit⟩
                rw [hvisit] at h
                contradiction
  -- Nothing but a request waits as one.
  | place kind target pattern payload timeout => exact absurd h (hnone _ (.calls _ _ none) rfl)
  | placeOn layers line context pattern payload => exact absurd h (hnone _ (.calls _ _ none) rfl)
  | broadcast pattern payload timeout => exact absurd h (hnone _ (.calls _ _ none) rfl)
  | probe timeout => exact absurd h (hnone _ (.calls _ _ none) rfl)
  | letGo name after =>
      cases after with
      | none => exact absurd h (hnone _ (.letGo name _) rfl)
      | some ms => exact absurd h (hnone _ (.letGo name _) rfl)
  | drain limit => exact absurd h (hnone _ (.drain _) rfl)
  | stop limit => exact absurd h (hnone _ (.shutdown _) rfl)
  | look name =>
      simp only [start, shows] at h
      split at h <;> contradiction
  | unsubscribe name =>
      simp only [start, shows] at h
      split at h <;> contradiction
  | none | close | targets | wiring | free | setReady | trigger | phase | hold name
    | subscribe name | sweep longest | tracked => contradiction

/-- What is left of a request after it has worked has the limit that it had. -/
theorem limit?_work (r : Rehearsal) (errand : Errand) (t : Timer)
    (h : (progressOf (r.work errand).2).limit? = some t) : errand.limit? = some t := by
  rcases Option.bind_eq_some_iff.mp h with ⟨v, hv, hlimit⟩
  exact Option.bind_eq_some_iff.mpr ⟨v, visit?_work r errand v hv, hlimit⟩

/-- A request that is started has a limit if there are layers around the interface to set one. -/
theorem limit?_start (r : Rehearsal) (c : Command) (t : Timer)
    (h : (progressOf (r.start c).2).limit? = some t) : r.envelope.isSome := by
  rcases Option.bind_eq_some_iff.mp h with ⟨v, hv, hlimit⟩
  rcases visit?_start r c v hv with ⟨_, q, counted, _, _, _, rfl⟩
  simp only [pending, Option.map_eq_some_iff] at hlimit
  rcases hlimit with ⟨e, henvelope, _⟩
  rw [henvelope]
  rfl

/-- A time limit of a request is one that the layers around the interface have set. -/
def Limited (r : Rehearsal) : Prop :=
  ∀ a ∈ r.activities, a.progress.limit?.isSome → r.envelope.isSome

theorem limited_setProgress (n : Nat) (p : Progress) (hfixed : Fixed r s)
    (hp : p.limit?.isSome → r.envelope.isSome) (h : Limited r) : Limited (s.setProgress n p) := by
  have hkept : Limited s := fun a ha hlimit => by
    rw [hfixed.envelope]
    exact h a (hfixed.activities ▸ ha) hlimit
  unfold setProgress
  cases s.activity? n with
  | none => exact hkept
  | some b =>
      intro a ha hlimit
      rcases List.mem_or_eq_of_mem_set ha with hold | hnew
      · exact hkept a hold hlimit
      · rw [hnew] at hlimit
        exact hfixed.envelope ▸ hp hlimit

theorem limited_turn (h : Limited r) (hturn : Turn r s) : Limited s := by
  cases hturn with
  | enlist name c =>
      have hfixed := start_fixed r c
      intro a ha hlimit
      simp only [enlist, hfixed.activities, hfixed.envelope] at ha ⊢
      rcases List.mem_append.mp ha with hold | hnew
      · exact h a hold hlimit
      · rw [List.mem_singleton.mp hnew] at hlimit
        rcases Option.isSome_iff_exists.mp hlimit with ⟨t, ht⟩
        exact limit?_start r c t ht
  | work n errand herrand =>
      rcases activity?_of_errand? r n errand herrand with ⟨name, ha⟩
      refine limited_setProgress n _ (work_steady r errand).toFixed (fun hlimit => ?_) h
      -- What is left of a request has the limit that it had.
      rcases Option.isSome_iff_exists.mp hlimit with ⟨t, ht⟩
      exact h _ (List.mem_of_getElem? ha)
        (Option.isSome_iff_exists.mpr ⟨t, limit?_work r errand t ht⟩)
  | release n errand herrand =>
      exact limited_setProgress n .givenUp (release_steady r errand).toFixed
        (fun hlimit => absurd hlimit Bool.false_ne_true) h
  | take n a ha herrand =>
      exact limited_setProgress n .taken (Steady.refl r).toFixed
        (fun hlimit => absurd hlimit Bool.false_ne_true) h
  | occur o =>
      intro a ha hlimit
      rw [(occur_fixed r o).envelope]
      exact h a ((occur_fixed r o).activities ▸ ha) hlimit
  | clock now | wall wall | queue ready => exact h

theorem limited_of_reachable (r : Rehearsal) (h : Reachable r) : Limited r := by
  rcases h with ⟨first, hfresh, hreaches⟩
  induction hreaches with
  | refl =>
      intro a ha
      rw [hfresh.1] at ha
      exact absurd ha List.not_mem_nil
  | tail _ hturn ih => exact limited_turn ih hturn

end Parts

end Rehearsal

end Gateway
