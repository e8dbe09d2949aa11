import Gateway.Proofs.Rehearsal.Turns
import Gateway.Proofs.Rehearsal.Visits

/-!
# Requests under Way

The controller of the server's life counts the requests under way, and draining waits until the
count is zero. Two things are counted: requests to forwarding routes, from the first check that they
pass until they are answered or given up, and whatever is held by hand under a name. The module
shows that nothing else is: in every reachable state the count is the number of names that are held
and of activities that are such requests (`inFlight_eq`). So a request that was answered has left
no mark on the count, whatever its answer was and whatever else went on meanwhile.

The count goes down by a subtraction that would stop at zero, so the argument must not subtract.
`Owes k` says that beside the names held by hand `k` requests are counted, and each lemma says what
an operation owes afterwards. Something that is about to work counts itself among the `k`, and is
among them still if it has not ended (`owes_work`).

## Main definitions

* `Errand.isCounted`, `Rehearsal.underWay`: The requests that are counted as under way.
* `Rehearsal.Owes`, `Rehearsal.Balanced`: What the count consists of.

## Theorems

* `Rehearsal.owes_leave`: A request that ends is counted no longer.
* `Rehearsal.owes_work`, `Rehearsal.owes_start`: What is owed after working and after starting.
* `Rehearsal.balanced_turn`: No turn miscounts.
* `Rehearsal.inFlight_eq`: The count in every reachable state.
-/

namespace Gateway

/-- Whether something is a request that is counted as under way. -/
def Errand.isCounted : Errand → Bool
  | .calls _ _ (some visit) => visit.counted
  | _ => false

/-- Whether something that stands so is a request that is counted as under way. -/
def Progress.isCounted : Progress → Bool
  | .running errand => errand.isCounted
  | _ => false

namespace Rehearsal

/-- How many requests are counted as under way. -/
def underWay (r : Rehearsal) : Nat :=
  r.activities.countP fun a => a.progress.isCounted

/-- How often something counts as under way. -/
def weight (errand : Errand) : Nat :=
  if errand.isCounted then 1 else 0

/-- How often what is left of something counts as under way. -/
def weightOf : Upshot ⊕ Errand → Nat
  | .inl _ => 0
  | .inr errand => weight errand

/-- Beside what is held by hand so many requests are counted, and so much was started. -/
def Owes (started : List Activity) (k : Nat) (r : Rehearsal) : Prop :=
  r.lifecycle.inFlight = r.held.length + k ∧ r.activities = started

section Parts

variable {started : List Activity} {k : Nat} {r s : Rehearsal}

theorem Owes.congr (h : Owes started k r)
    (hcount : s.lifecycle.inFlight = r.lifecycle.inFlight) (hheld : s.held = r.held)
    (hactivities : s.activities = r.activities) : Owes started k s := by
  unfold Owes
  rw [hcount, hheld, hactivities]
  exact h

/-! ## What Operations Change -/

theorem leave_eq (r : Rehearsal) :
    ∃ ready, r.leave = { r.withLifecycle r.lifecycle.leave.1 with ready := ready } := by
  unfold leave
  simp only
  split
  · exact ⟨_, rfl⟩
  · exact ⟨r.ready, rfl⟩

theorem settle_inFlight (l : Lifecycle) : l.settle.1.inFlight = l.inFlight := by
  unfold Lifecycle.settle
  split <;> rfl

theorem landLegs_eq (r : Rehearsal) (legs : List Leg) :
    ∃ board, (r.landLegs legs).1 = { r with board := board } := by
  induction legs generalizing r with
  | nil => exact ⟨r.board, rfl⟩
  | cons leg legs ih =>
      unfold landLegs
      cases leg.state with
      | settled result => exact ih r
      | flying n => exact ih { r with board := (r.board.land n r.now).1 }

theorem abandonLegs_eq (r : Rehearsal) (legs : List Leg) :
    ∃ board, r.abandonLegs legs = { r with board := board } := by
  induction legs generalizing r with
  | nil => exact ⟨r.board, rfl⟩
  | cons leg legs ih =>
      unfold abandonLegs
      rw [List.foldl_cons]
      cases leg.state with
      | settled result => exact ih r
      | flying n => exact ih { r with board := r.board.abandon n }

theorem placeAll_eq (kind : CallKind) (pattern : String) (payload : Json) (timeout : Nat)
    (r : Rehearsal) (targets : List Target) :
    ∃ board orders, (placeAll kind pattern payload timeout r targets).1
      = { r with board := board, orders := orders } := by
  induction targets generalizing r with
  | nil => exact ⟨r.board, r.orders, rfl⟩
  | cons t targets ih => exact ih (r.place kind t pattern payload timeout).1

theorem inquire_eq (r : Rehearsal) (inquiry : Inquiry) :
    ∃ board orders, (r.inquire inquiry).1 = { r with board := board, orders := orders } := by
  cases inquiry with
  | send target pattern payload => exact ⟨_, _, rfl⟩
  | broadcast pattern payload => exact placeAll_eq .event pattern payload _ r _
  | probe timeout => exact placeAll_eq .request _ _ timeout r _

/-- What the server does in passing to another stage leaves the count as it is. -/
theorem act_unchanged (r : Rehearsal) (a : Server.Action) :
    (r.act a).lifecycle.inFlight = r.lifecycle.inFlight ∧ (r.act a).held = r.held
      ∧ (r.act a).activities = r.activities := by
  cases a <;> exact ⟨rfl, rfl, rfl⟩

theorem occur_unchanged (r : Rehearsal) (o : Server.Occurrence) :
    (r.occur o).lifecycle.inFlight = r.lifecycle.inFlight ∧ (r.occur o).held = r.held
      ∧ (r.occur o).activities = r.activities := by
  unfold occur
  cases hstage : r.stage with
  | none => exact ⟨rfl, rfl, rfl⟩
  | some stage =>
      have hacts : ∀ (actions : List Server.Action) (s : Rehearsal),
          (actions.foldl act s).lifecycle.inFlight = s.lifecycle.inFlight
            ∧ (actions.foldl act s).held = s.held
            ∧ (actions.foldl act s).activities = s.activities := by
        intro actions
        induction actions with
        | nil => exact fun s => ⟨rfl, rfl, rfl⟩
        | cons a actions ih =>
            intro s
            rcases ih (s.act a) with ⟨hcount, hheld, hactivities⟩
            rcases act_unchanged s a with ⟨hcount', hheld', hactivities'⟩
            exact ⟨hcount.trans hcount', hheld.trans hheld', hactivities.trans hactivities'⟩
      exact hacts _ { r with stage := some (stage.next o).1 }

theorem setProgress_of_activity (r s : Rehearsal) (n : Nat) (p : Progress) (a : Activity)
    (ha : r.activities[n]? = some a) (hsame : s.activities = r.activities) :
    s.setProgress n p = { s with activities := r.activities.set n ⟨a.name, p⟩ } := by
  unfold setProgress activity?
  rw [hsame, ha]

theorem setProgress_eq (r : Rehearsal) (n : Nat) (p : Progress) :
    ∃ activities, r.setProgress n p = { r with activities := activities } := by
  unfold setProgress
  cases r.activity? n with
  | none => exact ⟨r.activities, rfl⟩
  | some a => exact ⟨_, rfl⟩

/-- Sending an answer out counts it, and ends the request. -/
theorem respond_eq (r : Rehearsal) (visit : Visit) (response : Http.Response) :
    ∃ metrics ready, (r.respond visit response).1
      = { r.withLifecycle (if visit.counted then r.lifecycle.leave.1 else r.lifecycle) with
          board := { r.board with metrics := metrics }
          ready := ready } := by
  unfold respond
  cases hcounted : visit.counted with
  | false => exact ⟨_, r.ready, rfl⟩
  | true =>
      rcases leave_eq r with ⟨ready, hleave⟩
      simp only [if_true, hleave]
      exact ⟨_, ready, rfl⟩

/-- A request that waits is late, or all its calls have settled and it is answered, or it waits
    on. -/
theorem work_visit_cases (r : Rehearsal) (legs : List Leg) (purpose : Purpose) (visit : Visit) :
    (∃ e, r.envelope = some e ∧ visit.limit.isSome
      ∧ r.work (.calls legs purpose (some visit))
        = (r.withdraw legs visit,
          .inl (.response (Api.addressed visit.request (e.late visit.request)))))
      ∨ (∃ outcomes, outcomes? (r.landLegs legs).2 = some outcomes
        ∧ r.work (.calls legs purpose (some visit))
          = (r.landLegs legs).1.reply visit (answer (purpose.conclude outcomes)))
      ∨ r.work (.calls legs purpose (some visit))
        = ((r.landLegs legs).1, .inr (.calls (r.landLegs legs).2 purpose (some visit))) := by
  simp only [work]
  split
  · rename_i e henvelope hlate
    refine Or.inl ⟨e, henvelope, ?_, rfl⟩
    -- Without a limit nothing is late.
    unfold isLate at hlate
    cases hlimit : visit.limit with
    | none =>
        rw [hlimit] at hlate
        exact absurd hlate Bool.false_ne_true
    | some t => rfl
  · right
    cases houtcomes : outcomes? (r.landLegs legs).2 with
    | some outcomes => exact Or.inl ⟨outcomes, rfl, rfl⟩
    | none => exact Or.inr rfl

/-! ## What Is Owed -/

/-- A request that ends is counted no longer. -/
theorem owes_leave (h : Owes started (k + 1) r) : Owes started k r.leave := by
  rcases leave_eq r with ⟨ready, hleave⟩
  rw [hleave]
  refine ⟨?_, h.2⟩
  have hcount := h.1
  simp only [withLifecycle, lifecycle, Lifecycle.leave] at hcount ⊢
  omega

theorem owes_end (counted : Bool) (h : Owes started (k + if counted then 1 else 0) r) :
    Owes started k (if counted then r.leave else r) := by
  cases counted with
  | true => exact owes_leave h
  | false => exact h

theorem owes_landLegs (legs : List Leg) (h : Owes started k r) :
    Owes started k (r.landLegs legs).1 := by
  rcases landLegs_eq r legs with ⟨board, hland⟩
  rw [hland]
  exact h

theorem owes_withdraw (legs : List Leg) (visit : Visit)
    (h : Owes started (k + if visit.counted then 1 else 0) r) :
    Owes started k (r.withdraw legs visit) := by
  rcases abandonLegs_eq r legs with ⟨board, habandon⟩
  unfold withdraw
  rw [habandon]
  exact owes_end visit.counted h

theorem owes_respond (visit : Visit) (response : Http.Response)
    (h : Owes started (k + if visit.counted then 1 else 0) r) :
    Owes started k (r.respond visit response).1 :=
  (owes_end visit.counted h).congr rfl rfl rfl

theorem owes_finishServing (limit : Timer) (h : Owes started k r) :
    Owes started (k + weightOf (r.finishServing limit).2) (r.finishServing limit).1 := by
  unfold finishServing
  split
  · exact h
  · rcases occur_unchanged r .finished with ⟨hcount, hheld, hactivities⟩
    exact h.congr hcount hheld hactivities

/-- Working keeps the account: what works is owed as long as it has not ended. -/
theorem owes_work (errand : Errand) (h : Owes started (k + weight errand) r) :
    Owes started (k + weightOf (r.work errand).2) (r.work errand).1 := by
  cases errand with
  | calls legs purpose visit =>
      cases visit with
      | none =>
          have hlanded := owes_landLegs legs h
          simp only [work]
          split <;> exact hlanded
      | some visit =>
          have howes : Owes started (k + if visit.counted then 1 else 0) r := h
          -- It is late and given up, or it is answered, or it waits on and stays counted.
          rcases work_visit_cases r legs purpose visit with
            ⟨e, _, _, hwork⟩ | ⟨outcomes, _, hwork⟩ | hwork
          · rw [hwork]
            exact owes_withdraw legs visit howes
          · rw [hwork]
            exact owes_respond visit _ (owes_landLegs legs howes)
          · rw [hwork]
            exact owes_landLegs legs howes
  | letGo name timer =>
      simp only [work]
      split
      · split
        · rename_i hheld
          -- The name is held no longer, and neither is the request counted.
          have hmem : name ∈ r.held := List.contains_iff_mem.mp hheld
          have hlength := List.length_erase_of_mem hmem
          have hpos := List.length_pos_of_mem hmem
          have hcount : r.lifecycle.inFlight = r.held.length + k := h.1
          refine owes_leave ⟨?_, h.2⟩
          simp only [lifecycle, weightOf] at hcount hlength hpos ⊢
          omega
        · exact h
      · exact h
  | drain limit =>
      simp only [work]
      split
      · -- Only the phase changes, and only when nothing is counted.
        have hsettle := settle_inFlight r.lifecycle
        exact h.congr hsettle rfl rfl
      · split <;> exact h
  | shutdown limit =>
      simp only [work]
      split
      · split
        · rcases occur_unchanged (r.withLifecycle r.lifecycle.settle.1) .idle with
            ⟨hcount, hheld, hactivities⟩
          have hsettle := settle_inFlight r.lifecycle
          exact owes_finishServing limit (h.congr (hcount.trans hsettle) hheld hactivities)
        · split
          · rcases occur_unchanged r .overdue with ⟨hcount, hheld, hactivities⟩
            exact h.congr hcount hheld hactivities
          · exact h
      · exact owes_finishServing limit h
      · exact h

/-! ## Arrivals -/

theorem forward_lifecycle (api : Api) (now : Nat) (what : Http.Route.Forward) (quota : Quota)
    (q : Http.Request) : (api.forward now what quota q).1.lifecycle = api.lifecycle := by
  unfold Api.forward
  cases Api.authenticate api.secret api.wallSeconds q with
  | error e => rfl
  | ok claims =>
      cases Api.readBody q with
      | error response => rfl
      | ok body =>
          simp only [Api.spend]
          cases (api.limiter.check now quota claims.sub).2 <;> rfl

/-- A request that arrives counts as under way from then on if it is said to count. -/
theorem receive_inFlight (api : Api) (now : Nat) (targets : List Target)
    (exposition : List String) (q : Http.Request) :
    (api.receive now targets exposition q).1.lifecycle.inFlight
      = api.lifecycle.inFlight
        + if (api.receive now targets exposition q).2.2 then 1 else 0 := by
  unfold Api.receive
  cases Http.Route.ofPath? q.path with
  | none => rfl
  | some route =>
      simp only
      cases route.forward? with
      | none =>
          simp only
          split <;> rfl
      | some forward =>
          simp only
          split
          · rfl
          · split
            · simp only [forward_lifecycle, Lifecycle.enter, if_true]
            · rfl

theorem owes_visit (q : Http.Request) (h : Owes started k r) :
    Owes started (k + weightOf (r.visit q).2) (r.visit q).1 := by
  by_cases hletsIn : r.LetsIn q
  · rw [visit_of_letsIn r q hletsIn]
    have hcount := receive_inFlight r.api r.now r.board.targets r.board.metrics.exposition q
    unfold takeIn
    generalize r.api.receive r.now r.board.targets r.board.metrics.exposition q = received at hcount
    rcases received with ⟨api, reception, counted⟩
    have howes : Owes started (k + if counted then 1 else 0) { r.numbered with api := api } := by
      refine ⟨?_, h.2⟩
      have hbefore := h.1
      unfold lifecycle at hbefore ⊢
      simp only at hcount ⊢
      rw [hcount, hbefore]
      exact Nat.add_assoc _ _ _
    cases reception with
    | error response => exact owes_respond (r.pending q counted) response howes
    | ok inquiry =>
        -- What is asked of the backends leaves the count alone.
        rcases inquire_eq { r.numbered with api := api } inquiry with ⟨board, orders, hinquire⟩
        unfold consult
        refine owes_work (.calls _ _ (some (r.pending q counted))) ?_
        rw [hinquire]
        exact howes
  · rcases visit_of_not_letsIn r q hletsIn with ⟨_, orders, response, _, _, hvisit⟩
    rw [hvisit]
    exact h

/-- Starting a command keeps the account. -/
theorem owes_start (c : Command) (h : Owes started k r) :
    Owes started (k + weightOf (r.start c).2) (r.start c).1 := by
  cases c with
  | place kind target pattern payload timeout => exact owes_work (.calls _ _ none) h
  | placeOn layers line context pattern payload => exact owes_work (.calls _ _ none) h
  | broadcast pattern payload timeout =>
      rcases placeAll_eq .event pattern payload (timeout.getD r.board.defaultTimeout) r
        r.board.targets with ⟨board, orders, hplace⟩
      refine owes_work (.calls _ _ none) ?_
      rw [hplace]
      exact h
  | probe timeout =>
      rcases placeAll_eq .request HealthReport.pattern HealthReport.payload timeout r
        r.board.targets with ⟨board, orders, hplace⟩
      refine owes_work (.calls _ _ none) ?_
      rw [hplace]
      exact h
  | hold name =>
      simp only [start, shows]
      have henter : Owes started (k + 1) (r.withLifecycle r.lifecycle.enter) := by
        refine ⟨?_, h.2⟩
        have hcount := h.1
        simp only [withLifecycle, lifecycle, Lifecycle.enter] at hcount ⊢
        omega
      split
      · exact owes_leave henter
      · -- The name is one more that is held.
        refine ⟨?_, henter.2⟩
        have hcount := henter.1
        simp only [withLifecycle, lifecycle, List.length_cons, weightOf] at hcount ⊢
        omega
  | letGo name after =>
      cases after with
      | none => exact owes_work (.letGo name _) h
      | some ms => exact owes_work (.letGo name _) h
  | subscribe name =>
      simp only [start, shows]
      refine h.congr ?_ rfl rfl
      simp only [withLifecycle, lifecycle, Lifecycle.subscribe, Lifecycle.unsubscribe]
      split <;> rfl
  | look name =>
      simp only [start, shows]
      split <;> exact h
  | unsubscribe name =>
      simp only [start, shows]
      split <;> exact h
  | drain limit => exact owes_work (.drain _) h
  | request received =>
      cases received with
      | error fault => exact h
      | ok sent =>
          rw [start_request]
          cases r.received? sent with
          | some q => exact owes_visit q h
          | none => exact h
  | stop limit =>
      rcases occur_unchanged r .stop with ⟨hcount, hheld, hactivities⟩
      exact owes_work (.shutdown _) (h.congr hcount hheld hactivities)
  | none | close | targets | wiring | free | setReady | trigger | phase | sweep longest | tracked =>
      exact h

theorem owes_release (errand : Errand) (h : Owes started (k + weight errand) r) :
    Owes started k (r.release errand) := by
  cases errand with
  | calls legs purpose visit =>
      cases visit with
      | none =>
          rcases abandonLegs_eq r legs with ⟨board, habandon⟩
          simp only [release, habandon]
          exact h
      | some visit => exact owes_withdraw legs visit h
  | letGo name timer | drain limit | shutdown limit => exact h

end Parts

/-! ## Turns -/

/-- What is counted is what is held by hand and the requests that wait for their answers. -/
def Balanced (r : Rehearsal) : Prop :=
  Owes r.activities r.underWay r

theorem isCounted_progressOf (what : Upshot ⊕ Errand) :
    (if (progressOf what).isCounted then 1 else 0) = weightOf what := by
  cases what <;> rfl

theorem activity?_of_errand? (r : Rehearsal) (n : Nat) (errand : Errand)
    (h : r.errand? n = some errand) : ∃ name, r.activities[n]? = some ⟨name, .running errand⟩ := by
  unfold errand? activity? at h
  split at h
  · rename_i name e ha
    rw [Option.some.inj h] at ha
    exact ⟨name, ha⟩
  · exact absurd h (by simp only [reduceCtorEq, not_false_eq_true])

theorem isCounted_of_errand?_eq_none (r : Rehearsal) (n : Nat) (a : Activity)
    (ha : r.activities[n]? = some a) (h : r.errand? n = none) : a.progress.isCounted = false := by
  rcases a with ⟨name, progress⟩
  unfold errand? activity? at h
  rw [ha] at h
  cases progress with
  | running errand => exact absurd h (by simp only [reduceCtorEq, not_false_eq_true])
  | ended outcome | givenUp | taken => rfl

/-- How an activity stands counts for itself: the others count as often as they did. -/
theorem underWay_set (r : Rehearsal) (n : Nat) (a : Activity) (ha : r.activities[n]? = some a) :
    ∃ others, r.underWay = others + (if a.progress.isCounted then 1 else 0)
      ∧ ∀ b : Activity, (r.activities.set n b).countP (fun a => a.progress.isCounted)
        = others + (if b.progress.isCounted then 1 else 0) := by
  rcases List.getElem?_eq_some_iff.mp ha with ⟨hn, hget⟩
  refine ⟨r.underWay - if a.progress.isCounted then 1 else 0, ?_, fun b => ?_⟩
  · by_cases hcounted : a.progress.isCounted = true
    · -- It is among those that are counted, so nothing is lost in subtracting it.
      have hpos : 0 < r.underWay :=
        List.countP_pos_iff.mpr ⟨a, List.mem_of_getElem? ha, hcounted⟩
      rw [if_pos hcounted]
      omega
    · rw [if_neg hcounted, Nat.sub_zero, Nat.add_zero]
  · unfold underWay
    rw [List.countP_set hn, hget]

/-- Passing from one way to stand to another changes the count by the difference. -/
theorem balanced_setProgress {r s : Rehearsal} (n : Nat) (p : Progress) (a : Activity)
    (ha : r.activities[n]? = some a)
    (h : ∀ k, Owes r.activities (k + if a.progress.isCounted then 1 else 0) r →
      Owes r.activities (k + if p.isCounted then 1 else 0) s)
    (hr : Balanced r) : Balanced (s.setProgress n p) := by
  rcases underWay_set r n a ha with ⟨others, hbefore, hafter⟩
  unfold Balanced at hr
  rw [hbefore] at hr
  have hs := h others hr
  rw [setProgress_of_activity r s n p a ha hs.2]
  refine ⟨?_, rfl⟩
  unfold underWay
  rw [hafter]
  exact hs.1

/-- No turn miscounts. -/
theorem balanced_turn (r s : Rehearsal) (h : Balanced r) (hturn : Turn r s) : Balanced s := by
  cases hturn with
  | enlist name c =>
      have hstart := owes_start c h
      refine ⟨?_, rfl⟩
      have hcount : (r.enlist name c).underWay = r.underWay + weightOf (r.start c).2 := by
        unfold enlist underWay
        simp only [hstart.2, List.countP_append, List.countP_singleton]
        rw [isCounted_progressOf]
      rw [hcount]
      exact hstart.1
  | work n errand herrand =>
      -- It works first, and what is left of it is written down then.
      rcases activity?_of_errand? r n errand herrand with ⟨name, ha⟩
      refine balanced_setProgress n (progressOf (r.work errand).2) _ ha (fun k hk => ?_) h
      rw [isCounted_progressOf]
      exact owes_work errand hk
  | release n errand herrand =>
      rcases activity?_of_errand? r n errand herrand with ⟨name, ha⟩
      exact balanced_setProgress n .givenUp _ ha (fun k hk => owes_release errand hk) h
  | take n a ha herrand =>
      -- An activity that does not run is not counted, so taking its outcome is no loss.
      have hidle := isCounted_of_errand?_eq_none r n a ha herrand
      refine balanced_setProgress n .taken a ha (fun k hk => ?_) h
      rw [hidle] at hk
      exact hk
  | occur o =>
      rcases occur_unchanged r o with ⟨hcount, hheld, hactivities⟩
      have hsame : (r.occur o).underWay = r.underWay := by
        unfold underWay
        rw [hactivities]
      unfold Balanced
      rw [hsame, hactivities]
      exact Owes.congr h hcount hheld hactivities
  | clock now | wall wall | queue ready => exact h

theorem balanced_of_reachable (r : Rehearsal) (h : Reachable r) : Balanced r := by
  rcases h with ⟨s, ⟨hactivities, hheld, hlifecycle, _⟩, hreaches⟩
  -- By induction on the turns: nothing is counted at first, and no turn miscounts.
  induction hreaches with
  | refl =>
      refine ⟨?_, rfl⟩
      unfold underWay
      rw [hlifecycle, hheld, hactivities]
      rfl
  | tail _ hturn ih => exact balanced_turn _ _ ih hturn

/-- In every reachable state what is counted as under way is what is held by hand and the requests
    that wait for their answers. -/
theorem inFlight_eq (r : Rehearsal) (h : Reachable r) :
    r.lifecycle.inFlight = r.held.length + r.underWay :=
  (balanced_of_reachable r h).1

/-- What runs is owed for itself, beside the others. -/
theorem owes_running (r : Rehearsal) (n : Nat) (errand : Errand) (h : Reachable r)
    (herrand : r.errand? n = some errand) :
    ∃ others, Owes r.activities (others + weight errand) r := by
  rcases activity?_of_errand? r n errand herrand with ⟨name, ha⟩
  rcases underWay_set r n _ ha with ⟨others, hbefore, _⟩
  have hbalanced : Owes r.activities r.underWay r := balanced_of_reachable r h
  rw [hbefore] at hbalanced
  exact ⟨others, hbalanced⟩

end Rehearsal

end Gateway
