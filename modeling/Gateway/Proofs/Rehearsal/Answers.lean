import Gateway.Proofs.Rehearsal.Calls
import Gateway.Proofs.Rehearsal.Steadiness

/-!
# What Becomes of a Request That Waits

A request that was put to the backends waits until its calls have settled, and turn after turn may
pass before that. Whatever the turns do meanwhile, the request is answered with what the flights of
its own calls came to, unless it is given up or its time limit passes first. That is the fate of the
request, and it is an invariant of turns: a turn of its own activity lands calls or ends the
request, and no other turn touches the flights that it waits for.

Neither the windows of the callers nor what was asked of the clients change when a request that
waits goes on or ends. Both are settled on the way in.

Answers pass the layers around the interface on their way out, and those add headers. So what is
said of an answer is what it carries.

## Main definitions

* `Http.Response.Carries`: An answer with all that is in another, and perhaps more headers.
* `Rehearsal.Leg.landed`, `Rehearsal.Later`: Calls that were looked at, and as they stand later on.
* `Rehearsal.Proceeds`: A turn of a request that waits.
* `Rehearsal.Personal`: A property of one activity that nothing else matters to.
* `Rehearsal.Fate`, `Rehearsal.Fated`: What may become of a request that waits.

## Theorems

* `Rehearsal.respond_carries`: What the layers leave of an answer.
* `Rehearsal.run_visit`: What a turn of a request that waits leaves as it is.
* `Rehearsal.Personal.turn`: Such a property is kept by every turn.
* `Rehearsal.fated_work`: A request that works keeps to its fate.
* `Rehearsal.fated_turn`, `Rehearsal.fated_enlist`: The fate of a request through turns.
-/

namespace Gateway

open Http

/-- A response with the status and the content of another, whose headers come first in it. -/
def Http.Response.Carries (whole part : Response) : Prop :=
  whole.status = part.status ∧ whole.content = part.content ∧ part.headers <+: whole.headers

section Layers

variable {whole part : Response}

theorem Http.Response.Carries.refl (part : Response) : part.Carries part :=
  ⟨rfl, rfl, List.prefix_rfl⟩

theorem Http.Response.Carries.withHeaders (h : whole.Carries part)
    (headers : List (String × Bytes)) : (whole.withHeaders headers).Carries part :=
  ⟨h.1, h.2.1, h.2.2.trans (List.prefix_append _ _)⟩

theorem Http.Response.Carries.compress (h : whole.Carries part) (q : Http.Request) :
    (Envelope.compress q whole).Carries part := by
  unfold Envelope.compress
  split
  · exact h
  · simp only
    split
    · exact (h.withHeaders _).withHeaders _
    · exact h.withHeaders _

theorem Http.Response.Carries.expose (h : whole.Carries part) (e : Envelope) (q : Http.Request) :
    (e.expose q whole).Carries part :=
  (h.withHeaders _).compress q

theorem Http.Response.Carries.addressed (h : whole.Carries part) (q : Http.Request) :
    (Api.addressed q whole).Carries part := by
  unfold Api.addressed
  split
  · split
    · exact h
    · exact h.withHeaders _
  · exact h

end Layers

namespace Rehearsal

/-! ## Answers -/

theorem respond_carries (r : Rehearsal) (visit : Visit) (response : Response)
    (hhead : visit.request.isHead = false) : (r.respond visit response).2.Carries response := by
  unfold respond
  simp only [hhead, Bool.false_eq_true, if_false]
  have hrefl := Response.Carries.refl response
  split
  · rename_i e _
    exact ((hrefl.withHeaders _).expose e visit.request).addressed visit.request
  · exact hrefl.addressed visit.request

theorem late_carries (e : Envelope) (q : Http.Request) :
    (Api.addressed q (e.late q)).Carries (.bare 408) :=
  ((Response.Carries.refl (.bare 408)).expose e q).addressed q

/-! ## Calls -/

theorem outcomes?_cons (leg : Leg) (legs : List Leg) :
    outcomes? (leg :: legs)
      = (Leg.outcome? leg).bind fun o => (outcomes? legs).map fun rest => o :: rest := by
  unfold outcomes?
  rw [List.mapM_cons]
  cases Leg.outcome? leg with
  | none => rfl
  | some o => cases legs.mapM Leg.outcome? <;> rfl

/-- Calls as they stand later on, when those under way were given flights: each stands as it did, or
    has settled since to what its flight came to. -/
inductive Later (flights : Nat → Option Flight) : List Leg → List Leg → Prop
  /-- There are no calls. -/
  | nil : Later flights [] []
  /-- The first call stands as it did. -/
  | kept (leg : Leg) {legs later : List Leg} (h : Later flights legs later) :
      Later flights (leg :: legs) (leg :: later)
  /-- The first call has settled. -/
  | settles (target : Target) (n now : Nat) (f : Flight) (result : CallResult) (answered : Bool)
      {legs later : List Leg} (hf : flights n = some f)
      (hout : f.outcome? now = some (result, answered)) (h : Later flights legs later) :
      Later flights (⟨target, .flying n⟩ :: legs) (⟨target, .settled result⟩ :: later)

section Later

variable {flights others : Nat → Option Flight} {legs later last : List Leg}

theorem Later.refl (flights : Nat → Option Flight) (legs : List Leg) : Later flights legs legs := by
  induction legs with
  | nil => exact .nil
  | cons leg legs ih => exact .kept leg ih

theorem Later.trans (h : Later flights legs later) (h' : Later flights later last) :
    Later flights legs last := by
  induction h generalizing last with
  | nil => exact h'
  | kept leg h ih =>
      cases h' with
      | kept _ h' => exact .kept leg (ih h')
      | settles target n now f result answered hf hout h' =>
          exact .settles target n now f result answered hf hout (ih h')
  | settles target n now f result answered hf hout h ih =>
      -- What has settled does not settle again.
      cases h' with
      | kept _ h' => exact .settles target n now f result answered hf hout (ih h')

/-- Only the flights of calls that are under way matter. -/
theorem Later.congr (h : Later flights legs later)
    (hsame : ∀ n ∈ numbersOf legs, others n = flights n) : Later others legs later := by
  induction h with
  | nil => exact .nil
  | kept leg h ih =>
      refine .kept leg (ih fun n hn => hsame n ?_)
      rcases leg with ⟨target, result | m⟩
      · exact hn
      · exact List.mem_cons_of_mem m hn
  | settles target n now f result answered hf hout h ih =>
      refine .settles target n now f result answered ?_ hout (ih fun m hm => hsame m ?_)
      · exact (hsame n List.mem_cons_self).trans hf
      · exact List.mem_cons_of_mem n hm

end Later

/-- A call after it has been looked at. -/
def Leg.landed (flights : Nat → Option Flight) (now : Nat) (leg : Leg) : Leg :=
  match leg.state with
  | .settled _ => leg
  | .flying n => match (flights n).bind fun f => f.outcome? now with
    | some out => ⟨leg.target, .settled out.1⟩
    | none => leg

theorem landed_congr {flights others : Nat → Option Flight} (now : Nat) (legs : List Leg)
    (h : ∀ m ∈ numbersOf legs, others m = flights m) :
    legs.map (Leg.landed others now) = legs.map (Leg.landed flights now) := by
  refine List.map_congr_left fun leg hleg => ?_
  rcases leg with ⟨target, result | n⟩
  · rfl
  · have hn : others n = flights n := h n (List.mem_filterMap.mpr ⟨_, hleg, rfl⟩)
    simp only [Leg.landed, hn]

/-- Each call is looked at by itself, and those that are still under way keep their flights. -/
theorem landLegs_map (r : Rehearsal) (legs : List Leg) (hdistinct : (numbersOf legs).Nodup) :
    (r.landLegs legs).2 = legs.map (Leg.landed r.board.flight? r.now)
      ∧ ∀ m ∈ numbersOf (r.landLegs legs).2,
        (r.landLegs legs).1.board.flight? m = r.board.flight? m := by
  induction legs generalizing r with
  | nil => exact ⟨rfl, fun m hm => absurd hm List.not_mem_nil⟩
  | cons leg legs ih =>
      rcases leg with ⟨target, result | n⟩
      · rcases ih r hdistinct with ⟨hmap, hkept⟩
        exact ⟨congrArg (List.cons (⟨target, .settled result⟩ : Leg)) hmap, hkept⟩
      · rcases List.nodup_cons.mp hdistinct with ⟨hn, hrest⟩
        rcases ih { r with board := (r.board.land n r.now).1 } hrest with ⟨hmap, hkept⟩
        have hspares := landLegs_spares { r with board := (r.board.land n r.now).1 } legs
        have hsublist := landLegs_numbers { r with board := (r.board.land n r.now).1 } legs
        -- The numbers of the calls after it are other ones.
        have hother : ∀ m ∈ numbersOf legs,
            (r.board.land n r.now).1.flight? m = r.board.flight? m := by
          intro m hm
          exact (land_spares r n).kept m fun hc => hn (hc ▸ hm)
        have hmapHere := hmap.trans (landed_congr r.now legs hother)
        unfold landLegs
        simp only [List.map_cons]
        cases hresult : (r.board.land n r.now).2 with
        | some result =>
            rcases Switchboard.outcome?_of_land r.board n r.now result hresult with
              ⟨f, answered, hf, hout⟩
            have hleg : Leg.landed r.board.flight? r.now ⟨target, .flying n⟩
                = ⟨target, .settled result⟩ := by
              simp only [Leg.landed, hf, Option.bind_some, hout]
            rw [hleg]
            exact ⟨congrArg _ hmapHere,
              fun m hm => (hkept m hm).trans (hother m (hsublist.subset hm))⟩
        | none =>
            have hsame := Switchboard.land_of_none r.board n r.now hresult
            have hpending : ((r.board.flight? n).bind fun f => f.outcome? r.now) = none :=
              Switchboard.outcome?_of_not_land r.board n r.now hresult
            have hleg : Leg.landed r.board.flight? r.now ⟨target, .flying n⟩
                = ⟨target, .flying n⟩ := by
              simp only [Leg.landed, hpending]
            rw [hleg]
            refine ⟨congrArg _ hmapHere, fun m hm => ?_⟩
            rcases List.mem_cons.mp hm with hm | hm
            · rw [hm]
              exact (hspares.kept n hn).trans (congrArg (Switchboard.flight? · n) hsame)
            · exact (hkept m hm).trans (hother m (hsublist.subset hm))

theorem later_landed (flights : Nat → Option Flight) (now : Nat) (legs : List Leg) :
    Later flights legs (legs.map (Leg.landed flights now)) := by
  induction legs with
  | nil => exact .nil
  | cons leg legs ih =>
      rcases leg with ⟨target, result | n⟩
      · exact .kept _ ih
      · rw [List.map_cons]
        cases hf : flights n with
        | none =>
            simp only [Leg.landed, hf, Option.bind_none]
            exact .kept _ ih
        | some f =>
            cases hout : f.outcome? now with
            | none =>
                simp only [Leg.landed, hf, Option.bind_some, hout]
                exact .kept _ ih
            | some out =>
                simp only [Leg.landed, hf, Option.bind_some, hout]
                exact .settles target n now f out.1 out.2 hf hout ih

/-- Calls that are landed settle to what their flights came to, and the others keep theirs. -/
theorem landLegs_later (r : Rehearsal) (legs : List Leg) (hdistinct : (numbersOf legs).Nodup) :
    Later r.board.flight? legs (r.landLegs legs).2
      ∧ ∀ m ∈ numbersOf (r.landLegs legs).2,
        (r.landLegs legs).1.board.flight? m = r.board.flight? m := by
  rcases landLegs_map r legs hdistinct with ⟨hmap, hkept⟩
  refine ⟨?_, hkept⟩
  rw [hmap]
  exact later_landed r.board.flight? r.now legs

theorem withdraw_keeps (r : Rehearsal) (legs : List Leg) (visit : Visit) :
    (r.withdraw legs visit).api.limiter = r.api.limiter
      ∧ (r.withdraw legs visit).board.asked = r.board.asked
      ∧ (r.withdraw legs visit).held = r.held := by
  rcases abandonLegs_eq r legs with ⟨board, habandon⟩
  have hasked := (abandonLegs_steady r legs).asked
  unfold withdraw
  simp only
  split
  · rcases leave_eq (r.abandonLegs legs) with ⟨ready, hleave⟩
    rw [hleave]
    rw [habandon] at hasked ⊢
    exact ⟨rfl, hasked, rfl⟩
  · rw [habandon] at hasked ⊢
    exact ⟨rfl, hasked, rfl⟩

/-! ## A Request That Waits -/

/-- The windows of the callers, what was asked of the clients and what is held by hand are the same
    however a request that waits goes on. -/
theorem work_visit_keeps (r : Rehearsal) (legs : List Leg) (purpose : Purpose) (visit : Visit) :
    (r.work (.calls legs purpose (some visit))).1.api.limiter = r.api.limiter
      ∧ (r.work (.calls legs purpose (some visit))).1.board.asked = r.board.asked
      ∧ (r.work (.calls legs purpose (some visit))).1.held = r.held := by
  rcases landLegs_eq r legs with ⟨board, hland⟩
  have hasked := (landLegs_steady r legs).asked
  rcases work_visit_cases r legs purpose visit with
    ⟨e, _, _, hwork⟩ | ⟨outcomes, _, hwork⟩ | hwork
  · rw [hwork]
    exact withdraw_keeps r legs visit
  · rw [hwork]
    rcases respond_eq (r.landLegs legs).1 visit (answer (purpose.conclude outcomes)) with
      ⟨metrics, ready, hrespond⟩
    unfold reply
    rw [hrespond]
    rw [hland] at hasked ⊢
    exact ⟨rfl, hasked, rfl⟩
  · rw [hwork]
    rw [hland] at hasked ⊢
    exact ⟨rfl, hasked, rfl⟩

/-- A turn of an activity changes what working does, and how the activity stands. -/
theorem run_eq (r : Rehearsal) (n : Nat) (errand : Errand) (h : r.errand? n = some errand) :
    ∃ activities ready, r.run n
      = { (r.work errand).1 with activities := activities, ready := ready } := by
  rcases run_of_errand r n errand h with ⟨ready, _, hrun⟩
  rcases setProgress_eq (r.work errand).1 n (progressOf (r.work errand).2) with ⟨activities, hset⟩
  exact ⟨activities, ready, by rw [hrun, hset]⟩

/-- A turn of a request that waits: nothing is asked and no point is spent, and the request is
    counted no longer once it has ended. -/
structure Proceeds (r : Rehearsal) (n : Nat) (errand : Errand) : Prop where
  /-- The windows of the callers are as they were. -/
  limiter : (r.run n).api.limiter = r.api.limiter
  /-- No client is called. -/
  asked : (r.run n).board.asked = r.board.asked
  /-- What counted before counts as long as there is something left of it. -/
  count : (r.run n).lifecycle.inFlight + weight errand
    = r.lifecycle.inFlight + weightOf (r.work errand).2

theorem run_visit (r : Rehearsal) (hr : Reachable r) (n : Nat) (legs : List Leg)
    (purpose : Purpose) (visit : Visit)
    (h : r.errand? n = some (.calls legs purpose (some visit))) :
    Proceeds r n (.calls legs purpose (some visit)) := by
  rcases run_eq r n _ h with ⟨activities, ready, hrun⟩
  rcases work_visit_keeps r legs purpose visit with ⟨hlimiter, hasked, hheld⟩
  rcases owes_running r n _ hr h with ⟨others, howes⟩
  have hbefore := howes.1
  have hafter := (owes_work _ howes).1
  have hsame : (r.run n).lifecycle = (r.work (.calls legs purpose (some visit))).1.lifecycle := by
    rw [hrun]
    rfl
  rw [hheld] at hafter
  -- The others count the same before and after, and so does what is held by hand.
  refine ⟨by rw [hrun]; exact hlimiter, by rw [hrun]; exact hasked, ?_⟩
  rw [hsame]
  omega

/-! ## What Holds of One Activity -/

/-- A property of how an activity stands that is a matter of the activity alone: of what the rest of
    the rehearsal does, it depends on no more than the clock and the flights of its own calls. -/
structure Personal (P : Rehearsal → Progress → Prop) : Prop where
  /-- Nothing else matters to it. -/
  congr {r s : Rehearsal} {p : Progress} (h : P r p) (hnow : s.now = r.now)
    (hflights : ∀ m ∈ p.numbers, s.board.flight? m = r.board.flight? m) : P s p
  /-- It is kept when the activity works. -/
  work {r : Rehearsal} {errand : Errand} (hdistinct : errand.numbers.Nodup)
    (h : P r (.running errand)) : P (r.work errand).1 (progressOf (r.work errand).2)
  /-- It holds of what was given up. -/
  givenUp (r : Rehearsal) : P r .givenUp
  /-- It holds of what was taken. -/
  taken (r : Rehearsal) : P r .taken

namespace Personal

variable {P : Rehearsal → Progress → Prop} {r s : Rehearsal} {n : Nat} {a : Activity}

/-- It is kept when some activity comes to stand otherwise, if its own flights are left alone. -/
theorem setProgress (hP : Personal P) (m : Nat) (p : Progress) (b : Activity)
    (ha : r.activities[n]? = some a) (hb : r.activities[m]? = some b) (hfixed : Fixed r s)
    (h : P r a.progress) (hself : m = n → P s p)
    (hother : m ≠ n → ∀ k ∈ a.progress.numbers, s.board.flight? k = r.board.flight? k) :
    ∃ c, (s.setProgress m p).activities[n]? = some c ∧ P (s.setProgress m p) c.progress := by
  rw [setProgress_of_activity r s m p b hb hfixed.activities]
  by_cases hm : m = n
  · have hn : n < r.activities.length := (List.getElem?_eq_some_iff.mp ha).1
    rw [hm]
    exact ⟨⟨b.name, p⟩, List.getElem?_set_self hn, hP.congr (hself hm) rfl fun _ _ => rfl⟩
  · refine ⟨a, (List.getElem?_set_ne hm).trans ha, hP.congr h hfixed.now fun k hk => ?_⟩
    exact hother hm k hk

/-- It is kept by every turn, if by the moves of the clock. -/
theorem turn (hP : Personal P) (hr : Reachable r) (ha : r.activities[n]? = some a)
    (h : P r a.progress) (hturn : Turn r s)
    (hclock : ∀ now, s = { r with now := now } → P s a.progress) :
    ∃ b, s.activities[n]? = some b ∧ P s b.progress := by
  have horderly := orderly_of_reachable r hr
  cases hturn with
  | enlist name c =>
      have hfixed := start_fixed r c
      have hlt : n < r.activities.length := (List.getElem?_eq_some_iff.mp ha).1
      -- A new activity comes after all others, and its calls get new numbers.
      refine ⟨a, ?_, hP.congr h hfixed.now fun m hm => ?_⟩
      · unfold enlist
        simp only [hfixed.activities]
        rw [List.getElem?_append_left hlt, ha]
      · exact (start_starts r c).spares.kept m (horderly.below m (mem_numbers ha m hm))
  | work m errand herrand =>
      rcases activity?_of_errand? r m errand herrand with ⟨name, hb⟩
      refine hP.setProgress m _ _ ha hb (work_steady r errand).toFixed h (fun hm => ?_)
        (fun hm k hk => ?_)
      · -- The activity itself is at work.
        rw [hm, ha] at hb
        rw [Option.some.inj hb] at h ha
        exact hP.work (horderly.distinct_of_activity ha) h
      · exact (work_spares r errand).1.kept k (horderly.disjoint ha hb (Ne.symm hm) k hk)
  | release m errand herrand =>
      rcases activity?_of_errand? r m errand herrand with ⟨name, hb⟩
      refine hP.setProgress m _ _ ha hb (release_steady r errand).toFixed h
        (fun _ => hP.givenUp _) (fun hm k hk => ?_)
      exact (release_spares r errand).kept k (horderly.disjoint ha hb (Ne.symm hm) k hk)
  | take m b hb herrand =>
      exact hP.setProgress m .taken b ha hb (Steady.refl r).toFixed h (fun _ => hP.taken _)
        (fun _ k _ => rfl)
  | occur o =>
      have hfixed := occur_fixed r o
      have hspares : Spares (fun _ => True) r (r.occur o) := occur_spares r o
      refine ⟨a, by rw [hfixed.activities, ha], hP.congr h hfixed.now fun m hm => ?_⟩
      exact hspares.kept m trivial
  | clock now => exact ⟨a, ha, hclock now rfl⟩
  | wall wall | queue ready => exact ⟨a, ha, hP.congr h rfl fun _ _ => rfl⟩

/-- What is started comes after what was started before. -/
theorem enlist (hP : Personal P) (name : Option String) (c : Command)
    (h : P (r.start c).1 (progressOf (r.start c).2)) :
    ∃ b, (r.enlist name c).activities[r.activities.length]? = some b
      ∧ P (r.enlist name c) b.progress := by
  exact ⟨_, enlist_activity r name c, hP.congr h rfl fun _ _ => rfl⟩

end Personal

/-! ## The Fate of a Request -/

/-- What may become of a request that waits for its calls. -/
inductive Fate (flights : Nat → Option Flight) (legs : List Leg) (purpose : Purpose)
    (visit : Visit) : Progress → Prop
  /-- It waits for those that have not settled. -/
  | waits (later : List Leg) (h : Later flights legs later) :
      Fate flights legs purpose visit (.running (.calls later purpose (some visit)))
  /-- All have settled, and what they came to is the answer. -/
  | answered (later : List Leg) (outcomes : List Outcome) (response : Response)
      (h : Later flights legs later) (hall : outcomes? later = some outcomes)
      (hcarries : response.Carries (answer (purpose.conclude outcomes))) :
      Fate flights legs purpose visit (.ended (.response response))
  /-- It took longer than the layers around the interface allow. -/
  | late (response : Response) (hlimit : visit.limit.isSome)
      (hcarries : response.Carries (.bare 408)) :
      Fate flights legs purpose visit (.ended (.response response))
  /-- It was given up. -/
  | givenUp : Fate flights legs purpose visit .givenUp
  /-- It has ended, and its outcome was taken. -/
  | taken : Fate flights legs purpose visit .taken

/-- A request stands as it may, and the calls that it still waits for are the flights they were. -/
structure Fated (flights : Nat → Option Flight) (legs : List Leg) (purpose : Purpose)
    (visit : Visit) (r : Rehearsal) (p : Progress) : Prop where
  fate : Fate flights legs purpose visit p
  flights : ∀ m ∈ p.numbers, r.board.flight? m = flights m

section Fates

variable {flights : Nat → Option Flight} {legs : List Leg} {purpose : Purpose} {visit : Visit}

/-- A request that works keeps to its fate. -/
theorem fated_work (r : Rehearsal) (errand : Errand) (hhead : visit.request.isHead = false)
    (hdistinct : errand.numbers.Nodup) (h : Fated flights legs purpose visit r (.running errand)) :
    Fated flights legs purpose visit (r.work errand).1 (progressOf (r.work errand).2) := by
  rcases h with ⟨hfate, hflights⟩
  cases hfate with
  | waits later hlater =>
      rcases landLegs_later r later hdistinct with ⟨hland, hkept⟩
      have hlast := hlater.trans (hland.congr fun m hm => (hflights m hm).symm)
      -- Whichever of the three it is, the calls are the same ones, somewhat later.
      rcases work_visit_cases r later purpose visit with
        ⟨e, _, hlimit, hwork⟩ | ⟨outcomes, hall, hwork⟩ | hwork
      · rw [hwork]
        refine ⟨.late _ hlimit (late_carries e visit.request), fun m hm => ?_⟩
        exact absurd hm List.not_mem_nil
      · rw [hwork]
        refine ⟨.answered _ outcomes _ hlast hall (respond_carries _ visit _ hhead), fun m hm => ?_⟩
        exact absurd hm List.not_mem_nil
      · rw [hwork]
        refine ⟨.waits _ hlast, fun m hm => (hkept m hm).trans (hflights m ?_)⟩
        exact (landLegs_numbers r later).subset hm

/-- The fate of a request is a matter of that request alone. -/
theorem personal_fated (hhead : visit.request.isHead = false) :
    Personal (Fated flights legs purpose visit) where
  congr h _ hflights := ⟨h.fate, fun m hm => (hflights m hm).trans (h.flights m hm)⟩
  work hdistinct h := fated_work _ _ hhead hdistinct h
  givenUp _ := ⟨.givenUp, fun _ hm => absurd hm List.not_mem_nil⟩
  taken _ := ⟨.taken, fun _ hm => absurd hm List.not_mem_nil⟩

/-- No turn takes a request from its fate. -/
theorem fated_turn (r s : Rehearsal) (n : Nat) (a : Activity) (hhead : visit.request.isHead = false)
    (hr : Reachable r) (ha : r.activities[n]? = some a)
    (h : Fated flights legs purpose visit r a.progress) (hturn : Turn r s) :
    ∃ b, s.activities[n]? = some b ∧ Fated flights legs purpose visit s b.progress :=
  (personal_fated hhead).turn hr ha h hturn fun _ hs => hs ▸ ⟨h.fate, h.flights⟩

/-- The fate of a request holds for as long as the rehearsal goes on. -/
theorem fated_reaches (r s : Rehearsal) (n : Nat) (a : Activity)
    (hhead : visit.request.isHead = false) (hr : Reachable r) (ha : r.activities[n]? = some a)
    (h : Fated flights legs purpose visit r a.progress) (hreaches : Reaches r s) :
    ∃ b, s.activities[n]? = some b ∧ Fated flights legs purpose visit s b.progress := by
  induction hreaches with
  | refl => exact ⟨a, ha, h⟩
  | tail hbefore hturn ih =>
      rcases ih with ⟨b, hb, hfated⟩
      exact fated_turn _ _ n b hhead (hr.reaches hbefore) hb hfated hturn

/-- What is started as a request that has a fate keeps to it. It is the activity that comes after
    those there were. -/
theorem fated_enlist (r s : Rehearsal) (name : Option String) (c : Command)
    (hhead : visit.request.isHead = false) (hr : Reachable r)
    (h : Fated flights legs purpose visit (r.start c).1 (progressOf (r.start c).2))
    (hreaches : Reaches (r.enlist name c) s) :
    ∃ a, s.activities[r.activities.length]? = some a
      ∧ Fated flights legs purpose visit s a.progress := by
  rcases (personal_fated hhead).enlist name c h with ⟨b, hb, hfated⟩
  exact fated_reaches _ s _ b hhead (hr.reaches (Turn.enlist r name c).reaches) hb hfated hreaches

end Fates

end Rehearsal

end Gateway
