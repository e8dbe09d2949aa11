import Gateway.Proofs.Rehearsal.UnderWay
import Gateway.Proofs.Switchboard.Flights
import Mathlib.Data.List.Nodup

/-!
# Calls under Way

A call that is under way is a flight of the switchboard and a part of one activity, and the number
of the flight is all that ties the two together. So that an activity gets what its own calls come
to, nobody else may settle or give up a flight of it. That is so because numbers are places in the
order of timers, which only grows: a call gets a number that none had before it (`Starts`), what an
activity does touches the flights of its own numbers only (`Spares`), and in every reachable state
no two calls have the same number (`Orderly`).

## Main definitions

* `Rehearsal.numbers`: The numbers of all calls that are under way.
* `Rehearsal.Spares`: Other flights are left alone.
* `Rehearsal.Starts`: Calls are started under new numbers.
* `Rehearsal.Orderly`: No two calls have the same number.

## Theorems

* `Rehearsal.work_spares`, `Rehearsal.start_starts`: What working and starting do to flights.
* `Rehearsal.orderly_of_reachable`: Numbers in every reachable state.
-/

namespace Gateway

/-- The number of a call that is under way. -/
def Leg.number? (leg : Leg) : Option Nat :=
  match leg.state with
  | .flying n => some n
  | .settled _ => none

/-- The numbers of those of some calls that are under way. -/
def numbersOf (legs : List Leg) : List Nat :=
  legs.filterMap Leg.number?

/-- The numbers of the calls of something that runs. -/
def Errand.numbers : Errand → List Nat
  | .calls legs _ _ => numbersOf legs
  | _ => []

/-- The numbers of the calls of something that stands so. -/
def Progress.numbers : Progress → List Nat
  | .running errand => errand.numbers
  | _ => []

namespace Rehearsal

/-- The numbers of all calls that are under way. -/
def numbers (r : Rehearsal) : List Nat :=
  r.activities.flatMap fun a => a.progress.numbers

/-- The flights of some numbers are left alone, and no flight is new but under new numbers. -/
structure Spares (p : Nat → Prop) (r s : Rehearsal) : Prop where
  orders : r.orders ≤ s.orders
  kept : ∀ m, p m → s.board.flight? m = r.board.flight? m
  new : ∀ e ∈ s.board.flights, e ∈ r.board.flights ∨ (r.orders ≤ e.1 ∧ e.1 < s.orders)

/-- Calls are started under new numbers, and the flights of those there were are left alone. -/
structure Starts (r s : Rehearsal) (numbers : List Nat) : Prop where
  spares : Spares (· < r.orders) r s
  distinct : numbers.Nodup
  new : ∀ n ∈ numbers, r.orders ≤ n ∧ n < s.orders

/-- No two calls have the same number, and none has one that is yet to come. -/
structure Orderly (r : Rehearsal) : Prop where
  distinct : r.numbers.Nodup
  below : ∀ n ∈ r.numbers, n < r.orders
  flights : ∀ e ∈ r.board.flights, e.1 < r.orders

section Parts

variable {p q : Nat → Prop} {r s t : Rehearsal}

theorem Spares.of_flights (horders : r.orders ≤ s.orders)
    (hflights : s.board.flights = r.board.flights) : Spares p r s := by
  refine ⟨horders, fun m _ => Switchboard.flight?_congr _ _ m hflights, fun e he => Or.inl ?_⟩
  rw [← hflights]
  exact he

theorem Spares.trans (h : Spares p r s) (h' : Spares p s t) : Spares p r t := by
  have horders := h.orders
  have horders' := h'.orders
  refine ⟨Nat.le_trans horders horders', fun m hm => (h'.kept m hm).trans (h.kept m hm), ?_⟩
  intro e he
  rcases h'.new e he with hold | hnew
  · rcases h.new e hold with hold | hnew
    · exact Or.inl hold
    · exact Or.inr ⟨hnew.1, by omega⟩
  · exact Or.inr ⟨by omega, hnew.2⟩

theorem Spares.mono (h : Spares p r s) (hle : ∀ m, q m → p m) : Spares q r s :=
  ⟨h.orders, fun m hm => h.kept m (hle m hm), h.new⟩

/-- If all numbers of flights were below the next one, they are still. -/
theorem Spares.below (h : Spares p r s) (hbelow : ∀ e ∈ r.board.flights, e.1 < r.orders) :
    ∀ e ∈ s.board.flights, e.1 < s.orders := by
  intro e he
  rcases h.new e he with hold | hnew
  · exact Nat.lt_of_lt_of_le (hbelow e hold) h.orders
  · exact hnew.2

/-- The flight of one number is touched, and then those of others. -/
theorem Spares.cons {n : Nat} {numbers : List Nat} (h : Spares (· ≠ n) r s)
    (h' : Spares (· ∉ numbers) s t) : Spares (· ∉ n :: numbers) r t := by
  have hfirst : Spares (· ∉ n :: numbers) r s :=
    h.mono fun m hm => (List.ne_and_not_mem_of_not_mem_cons hm).1
  exact hfirst.trans (h'.mono fun m hm => (List.ne_and_not_mem_of_not_mem_cons hm).2)

/-! ## Working -/

theorem land_spares (r : Rehearsal) (n : Nat) :
    Spares (· ≠ n) r { r with board := (r.board.land n r.now).1 } :=
  ⟨Nat.le_refl _, fun m hm => Switchboard.land_flight?_ne r.board n r.now m hm,
    fun e he => Or.inl (Switchboard.mem_of_mem_land r.board n r.now e he)⟩

theorem abandon_spares (r : Rehearsal) (n : Nat) :
    Spares (· ≠ n) r { r with board := r.board.abandon n } :=
  ⟨Nat.le_refl _, fun m hm => Switchboard.abandon_flight?_ne r.board n m hm,
    fun e he => Or.inl (Switchboard.mem_of_mem_abandon r.board n e he)⟩

theorem landLegs_spares (r : Rehearsal) (legs : List Leg) :
    Spares (· ∉ numbersOf legs) r (r.landLegs legs).1 := by
  induction legs generalizing r with
  | nil => exact .of_flights (Nat.le_refl _) rfl
  | cons leg legs ih =>
      rcases leg with ⟨target, result | n⟩
      · exact ih r
      · exact (land_spares r n).cons (ih _)

theorem abandonLegs_spares (r : Rehearsal) (legs : List Leg) :
    Spares (· ∉ numbersOf legs) r (r.abandonLegs legs) := by
  induction legs generalizing r with
  | nil => exact .of_flights (Nat.le_refl _) rfl
  | cons leg legs ih =>
      rcases leg with ⟨target, result | n⟩
      · exact ih r
      · exact (abandon_spares r n).cons (ih _)

theorem landLegs_numbers (r : Rehearsal) (legs : List Leg) :
    (numbersOf (r.landLegs legs).2).Sublist (numbersOf legs) := by
  induction legs generalizing r with
  | nil => exact List.Sublist.refl _
  | cons leg legs ih =>
      rcases leg with ⟨target, result | n⟩
      · exact ih r
      · unfold landLegs
        simp only
        cases (r.board.land n r.now).2 with
        | none => exact (ih _).cons_cons n
        | some result => exact (ih _).cons n

theorem leave_spares (r : Rehearsal) : Spares p r r.leave := by
  rcases leave_eq r with ⟨ready, hleave⟩
  rw [hleave]
  exact .of_flights (Nat.le_refl _) rfl

theorem withdraw_spares (r : Rehearsal) (legs : List Leg) (visit : Visit) :
    Spares (· ∉ numbersOf legs) r (r.withdraw legs visit) := by
  unfold withdraw
  simp only
  split
  · exact (abandonLegs_spares r legs).trans (leave_spares _)
  · exact abandonLegs_spares r legs

theorem reply_spares (r : Rehearsal) (visit : Visit) (response : Http.Response) :
    Spares p r (r.reply visit response).1 := by
  rcases respond_eq r visit response with ⟨metrics, ready, hrespond⟩
  unfold reply
  rw [hrespond]
  exact .of_flights (Nat.le_refl _) rfl

/-- Passing to another stage the server may close the clients, but settles no call. -/
theorem occur_spares (r : Rehearsal) (o : Server.Occurrence) : Spares p r (r.occur o) := by
  have hact : ∀ (a : Server.Action) (s : Rehearsal), Spares p s (s.act a) := by
    intro a s
    cases a with
    | closeClients => exact .of_flights (Nat.le_refl _) (Switchboard.close_flights s.board)
    | say level message | subscribe | setReady | trigger => exact .of_flights (Nat.le_refl _) rfl
  have hacts : ∀ (actions : List Server.Action) (s : Rehearsal),
      Spares p s (actions.foldl act s) := by
    intro actions
    induction actions with
    | nil => exact fun s => .of_flights (Nat.le_refl _) rfl
    | cons a actions ih => exact fun s => (hact a s).trans (ih (s.act a))
  unfold occur
  cases r.stage with
  | none => exact .of_flights (Nat.le_refl _) rfl
  | some stage =>
      have hpass : Spares p r { r with stage := some (stage.next o).1 } :=
        .of_flights (Nat.le_refl _) rfl
      exact hpass.trans (hacts _ _)

theorem finishServing_spares (r : Rehearsal) (limit : Timer) :
    Spares p r (r.finishServing limit).1 ∧ (progressOf (r.finishServing limit).2).numbers = [] := by
  unfold finishServing
  split
  · exact ⟨.of_flights (Nat.le_refl _) rfl, rfl⟩
  · exact ⟨occur_spares r .finished, rfl⟩

/-- What works touches its own flights only, and starts no call. -/
theorem work_spares (r : Rehearsal) (errand : Errand) :
    Spares (· ∉ errand.numbers) r (r.work errand).1
      ∧ (progressOf (r.work errand).2).numbers.Sublist errand.numbers := by
  cases errand with
  | calls legs purpose visit =>
      have hland := landLegs_spares r legs
      have hleft := landLegs_numbers r legs
      cases visit with
      | none =>
          simp only [work]
          split
          · exact ⟨hland, List.nil_sublist _⟩
          · exact ⟨hland, hleft⟩
      | some visit =>
          rcases work_visit_cases r legs purpose visit with
            ⟨e, _, _, hwork⟩ | ⟨outcomes, _, hwork⟩ | hwork
          · -- A request that is late has given its calls up.
            rw [hwork]
            exact ⟨withdraw_spares r legs visit, List.nil_sublist _⟩
          · rw [hwork]
            exact ⟨hland.trans (reply_spares _ visit _), List.nil_sublist _⟩
          · rw [hwork]
            exact ⟨hland, hleft⟩
  | letGo name timer =>
      simp only [work]
      split
      · split
        · have hrelease : Spares (· ∉ (Errand.letGo name timer).numbers) r
              { r with held := r.held.erase name } := .of_flights (Nat.le_refl _) rfl
          exact ⟨hrelease.trans (leave_spares _), List.Sublist.refl _⟩
        · exact ⟨.of_flights (Nat.le_refl _) rfl, List.Sublist.refl _⟩
      · exact ⟨.of_flights (Nat.le_refl _) rfl, List.Sublist.refl _⟩
  | drain limit =>
      simp only [work]
      split
      · exact ⟨.of_flights (Nat.le_refl _) rfl, List.Sublist.refl _⟩
      · split <;> exact ⟨.of_flights (Nat.le_refl _) rfl, List.Sublist.refl _⟩
  | shutdown limit =>
      have hfinish := finishServing_spares (p := (· ∉ (Errand.shutdown limit).numbers)) r limit
      simp only [work]
      split
      · split
        · have hsettle : Spares (· ∉ (Errand.shutdown limit).numbers) r
              (r.withLifecycle r.lifecycle.settle.1) := .of_flights (Nat.le_refl _) rfl
          rcases finishServing_spares (p := (· ∉ (Errand.shutdown limit).numbers))
            ((r.withLifecycle r.lifecycle.settle.1).occur .idle) limit with ⟨hspares, hnone⟩
          refine ⟨(hsettle.trans (occur_spares _ .idle)).trans hspares, ?_⟩
          rw [hnone]
          exact List.nil_sublist _
        · split
          · exact ⟨occur_spares r .overdue, List.Sublist.refl _⟩
          · exact ⟨.of_flights (Nat.le_refl _) rfl, List.Sublist.refl _⟩
      · refine ⟨hfinish.1, ?_⟩
        rw [hfinish.2]
        exact List.nil_sublist _
      · exact ⟨.of_flights (Nat.le_refl _) rfl, List.Sublist.refl _⟩

theorem release_spares (r : Rehearsal) (errand : Errand) :
    Spares (· ∉ errand.numbers) r (r.release errand) := by
  cases errand with
  | calls legs purpose visit =>
      cases visit with
      | none => exact abandonLegs_spares r legs
      | some visit => exact withdraw_spares r legs visit
  | letGo name timer | drain limit | shutdown limit => exact .of_flights (Nat.le_refl _) rfl

/-! ## Starting -/

theorem Starts.of_flights (horders : r.orders ≤ s.orders)
    (hflights : s.board.flights = r.board.flights) : Starts r s [] :=
  ⟨.of_flights horders hflights, List.nodup_nil, fun _ hn => absurd hn List.not_mem_nil⟩

/-- Calls that were started may work, and nothing is started by that. -/
theorem Starts.work (errand : Errand) (h : Starts r s errand.numbers) :
    Starts r (s.work errand).1 (progressOf (s.work errand).2).numbers := by
  rcases work_spares s errand with ⟨hspares, hsublist⟩
  have horders := hspares.orders
  -- What was there before has lower numbers than the calls that work.
  refine ⟨h.spares.trans (hspares.mono fun m hm hc => ?_), h.distinct.sublist hsublist, ?_⟩
  · have hle := (h.new m hc).1
    omega
  · intro n hn
    have hnew := h.new n (hsublist.subset hn)
    omega

/-- Nothing that takes no number stands in the way of what is started after it. -/
theorem Starts.after {numbers : List Nat} (h : Starts s t numbers) (horders : r.orders ≤ s.orders)
    (hflights : s.board.flights = r.board.flights) : Starts r t numbers := by
  have hbefore : Spares (· < r.orders) r s := .of_flights horders hflights
  refine ⟨hbefore.trans (h.spares.mono fun m hm => by omega), h.distinct, fun n hn => ?_⟩
  have hnew := h.new n hn
  omega

/-- A call is placed under the next number. -/
theorem starts_numbered (r : Rehearsal) (target : Target) (did : Switchboard × Placed)
    (h : Switchboard.Numbered r.board r.orders did) :
    Starts r { r with board := did.1, orders := r.orders + 2 } (numbersOf [⟨target, did.2⟩]) := by
  refine ⟨⟨Nat.le_add_right _ _, fun m hm => h.others m (Nat.ne_of_lt hm), fun e he => ?_⟩, ?_, ?_⟩
  · rcases h.new e he with hold | hnew
    · exact Or.inl hold
    · right
      rw [hnew]
      exact ⟨Nat.le_refl _, Nat.lt_add_of_pos_right (by decide)⟩
  · cases did.2 with
    | settled result => exact List.nodup_nil
    | flying n => exact List.nodup_singleton n
  · intro n hn
    cases hplaced : did.2 with
    | settled result =>
        rw [hplaced] at hn
        exact absurd hn List.not_mem_nil
    | flying m =>
        rw [hplaced] at hn
        rw [List.mem_singleton.mp hn, h.flying m hplaced]
        exact ⟨Nat.le_refl _, Nat.lt_add_of_pos_right (by decide)⟩

theorem place_starts (r : Rehearsal) (kind : CallKind) (target : Target) (pattern : String)
    (payload : Json) (timeout : Nat) :
    Starts r (r.place kind target pattern payload timeout).1
      (numbersOf [(r.place kind target pattern payload timeout).2]) :=
  starts_numbered r target _
    (Switchboard.numbered_place r.board target kind pattern payload timeout r.now r.orders)

/-- One call is started after another. -/
theorem Starts.append {ns ms : List Nat} (h : Starts r s ns) (h' : Starts s t ms) :
    Starts r t (ns ++ ms) := by
  have horders := h.spares.orders
  have horders' := h'.spares.orders
  refine ⟨h.spares.trans (h'.spares.mono fun m hm => by omega), ?_, ?_⟩
  · refine List.nodup_append.mpr ⟨h.distinct, h'.distinct, fun n hn m hm => ?_⟩
    have hfirst := (h.new n hn).2
    have hsecond := (h'.new m hm).1
    omega
  · intro n hn
    rcases List.mem_append.mp hn with hn | hn
    · have hfirst := h.new n hn
      omega
    · have hsecond := h'.new n hn
      omega

theorem placeAll_starts (kind : CallKind) (pattern : String) (payload : Json) (timeout : Nat)
    (r : Rehearsal) (targets : List Target) :
    Starts r (placeAll kind pattern payload timeout r targets).1
      (numbersOf (placeAll kind pattern payload timeout r targets).2) := by
  induction targets generalizing r with
  | nil => exact .of_flights (Nat.le_refl _) rfl
  | cons target targets ih =>
      have hfirst := place_starts r kind target pattern payload timeout
      have hall := hfirst.append (ih (r.place kind target pattern payload timeout).1)
      unfold numbersOf at hall
      rw [← List.filterMap_append] at hall
      exact hall

theorem inquire_starts (r : Rehearsal) (inquiry : Inquiry) :
    Starts r (r.inquire inquiry).1 (numbersOf (r.inquire inquiry).2.1) := by
  cases inquiry with
  | send target pattern payload => exact place_starts r .request target pattern payload _
  | broadcast pattern payload => exact placeAll_starts .event pattern payload _ r _
  | probe timeout => exact placeAll_starts .request _ _ timeout r _

theorem consult_starts (r : Rehearsal) (inquiry : Inquiry) (visit : Visit) :
    Starts r (r.consult inquiry visit).1 (progressOf (r.consult inquiry visit).2).numbers :=
  Starts.work (.calls _ _ (some visit)) (inquire_starts r inquiry)

theorem visit_starts (r : Rehearsal) (q : Http.Request) :
    Starts r (r.visit q).1 (progressOf (r.visit q).2).numbers := by
  by_cases hletsIn : r.LetsIn q
  · rw [visit_of_letsIn r q hletsIn]
    unfold takeIn
    rcases r.api.receive r.now r.board.targets r.board.metrics.exposition q with
      ⟨api, response | inquiry, counted⟩
    · have hreply : Spares (· < r.orders) { r.numbered with api := api }
          ({ r.numbered with api := api }.reply (r.pending q counted) response).1 :=
        reply_spares _ _ _
      have hnumbered : Spares (· < r.orders) r { r.numbered with api := api } :=
        .of_flights (Nat.le_add_right _ _) rfl
      exact ⟨hnumbered.trans hreply, List.nodup_nil, fun n hn => absurd hn List.not_mem_nil⟩
    · exact (consult_starts { r.numbered with api := api } inquiry (r.pending q counted)).after
        (Nat.le_add_right _ _) rfl
  · rcases visit_of_not_letsIn r q hletsIn with ⟨_, timers, response, _, _, hvisit⟩
    rw [hvisit]
    exact .of_flights (Nat.le_add_right _ _) rfl

/-- Whatever is started gets new numbers, and leaves the flights alone that there were. -/
theorem start_starts (r : Rehearsal) (c : Command) :
    Starts r (r.start c).1 (progressOf (r.start c).2).numbers := by
  cases c with
  | place kind target pattern payload timeout =>
      exact Starts.work (.calls _ _ none) (place_starts r kind target pattern payload _)
  | placeOn layers line context pattern payload =>
      exact Starts.work (.calls [⟨context.target, _⟩] _ none)
        (starts_numbered r context.target _
          (Switchboard.numbered_placeOn r.board layers line _ _ _))
  | broadcast pattern payload timeout =>
      exact Starts.work (.calls _ _ none) (placeAll_starts .event pattern payload _ r _)
  | probe timeout =>
      exact Starts.work (.calls _ _ none) (placeAll_starts .request _ _ timeout r _)
  | close => exact .of_flights (Nat.le_refl _) (Switchboard.close_flights r.board)
  | hold name =>
      simp only [start, shows]
      have henter : Spares (· < r.orders) r (r.withLifecycle r.lifecycle.enter) :=
        .of_flights (Nat.le_refl _) rfl
      refine ⟨?_, List.nodup_nil, fun n hn => absurd hn List.not_mem_nil⟩
      split
      · exact henter.trans (leave_spares _)
      · exact .of_flights (Nat.le_refl _) rfl
  | letGo name after =>
      cases after with
      | none => exact Starts.work (.letGo name _) (.of_flights (Nat.le_refl _) rfl)
      | some ms => exact Starts.work (.letGo name _) (.of_flights (Nat.le_add_right _ _) rfl)
  | look name =>
      simp only [start, shows]
      split <;> exact .of_flights (Nat.le_refl _) rfl
  | unsubscribe name =>
      simp only [start, shows]
      split <;> exact .of_flights (Nat.le_refl _) rfl
  | drain limit => exact Starts.work (.drain _) (.of_flights (Nat.le_add_right _ _) rfl)
  | request received =>
      cases received with
      | error fault => exact .of_flights (Nat.le_refl _) rfl
      | ok sent =>
          rw [start_request]
          cases r.received? sent with
          | some q => exact visit_starts r q
          | none => exact .of_flights (Nat.le_refl _) rfl
  | stop limit =>
      have hoccur : Spares (· < r.orders) r ((r.occur .stop).timer limit).1 :=
        (occur_spares r .stop).trans (.of_flights (Nat.le_add_right _ _) rfl)
      exact Starts.work (.shutdown _)
        ⟨hoccur, List.nodup_nil, fun n hn => absurd hn List.not_mem_nil⟩
  | none | targets | wiring | free | setReady | trigger | phase | subscribe name | sweep longest
    | tracked => exact .of_flights (Nat.le_refl _) rfl

end Parts

/-! ## Numbers -/

theorem flatMap_set_sublist {α β : Type} (f : α → List β) (l : List α) (n : Nat) (a b : α)
    (h : l[n]? = some a) (hsublist : (f b).Sublist (f a)) :
    ((l.set n b).flatMap f).Sublist (l.flatMap f) := by
  induction l generalizing n with
  | nil => exact List.Sublist.refl _
  | cons c l ih =>
      cases n with
      | zero =>
          have hc : c = a := Option.some.inj h
          rw [List.set_cons_zero, List.flatMap_cons, List.flatMap_cons, hc]
          exact hsublist.append (List.Sublist.refl _)
      | succ n =>
          rw [List.set_cons_succ, List.flatMap_cons, List.flatMap_cons]
          exact (List.Sublist.refl _).append (ih n h)

/-- Two activities have no number in common. -/
theorem Orderly.disjoint {r : Rehearsal} (h : Orderly r) {i j : Nat} {a b : Activity}
    (ha : r.activities[i]? = some a) (hb : r.activities[j]? = some b) (hne : i ≠ j) :
    ∀ m ∈ a.progress.numbers, m ∉ b.progress.numbers := by
  have hpairs := (List.nodup_flatMap.mp h.distinct).2
  rcases List.getElem?_eq_some_iff.mp ha with ⟨hi, hgeti⟩
  rcases List.getElem?_eq_some_iff.mp hb with ⟨hj, hgetj⟩
  intro m hma hmb
  rw [← hgeti] at hma
  rw [← hgetj] at hmb
  rcases Nat.lt_or_gt_of_ne hne with hlt | hlt
  · exact List.pairwise_iff_getElem.mp hpairs i j hi hj hlt hma hmb
  · exact List.pairwise_iff_getElem.mp hpairs j i hj hi hlt hmb hma

theorem Orderly.distinct_of_activity {r : Rehearsal} (h : Orderly r) {n : Nat} {a : Activity}
    (ha : r.activities[n]? = some a) : a.progress.numbers.Nodup :=
  (List.nodup_flatMap.mp h.distinct).1 a (List.mem_of_getElem? ha)

theorem mem_numbers {r : Rehearsal} {n : Nat} {a : Activity} (ha : r.activities[n]? = some a) :
    ∀ m ∈ a.progress.numbers, m ∈ r.numbers := fun _ hm =>
  List.mem_flatMap.mpr ⟨a, List.mem_of_getElem? ha, hm⟩

/-- An activity that keeps some of its numbers, and gets no other, leaves the others in order. -/
theorem orderly_setProgress {p : Nat → Prop} {r s : Rehearsal} (n : Nat) (progress : Progress)
    (a : Activity) (ha : r.activities[n]? = some a) (hsame : s.activities = r.activities)
    (hspares : Spares p r s) (hsublist : progress.numbers.Sublist a.progress.numbers)
    (h : Orderly r) : Orderly (s.setProgress n progress) := by
  have horders := hspares.orders
  have hset := setProgress_of_activity r s n progress a ha hsame
  have hnumbers : (s.setProgress n progress).numbers.Sublist r.numbers := by
    rw [hset]
    exact flatMap_set_sublist (fun a => a.progress.numbers) r.activities n a ⟨a.name, progress⟩ ha
      hsublist
  refine ⟨h.distinct.sublist hnumbers, fun m hm => ?_, fun e he => ?_⟩
  · have hlt := h.below m (hnumbers.subset hm)
    rw [hset]
    exact Nat.lt_of_lt_of_le hlt horders
  · rw [hset] at he ⊢
    exact hspares.below h.flights e he

theorem Orderly.of_unchanged {p : Nat → Prop} {r s : Rehearsal} (h : Orderly r)
    (hspares : Spares p r s) (hactivities : s.activities = r.activities) : Orderly s := by
  have hnumbers : s.numbers = r.numbers := by
    unfold numbers
    rw [hactivities]
  have horders := hspares.orders
  refine ⟨hnumbers ▸ h.distinct, fun m hm => ?_, hspares.below h.flights⟩
  rw [hnumbers] at hm
  exact Nat.lt_of_lt_of_le (h.below m hm) horders

theorem orderly_turn (r s : Rehearsal) (hr : Reachable r) (h : Orderly r) (hturn : Turn r s) :
    Orderly s := by
  cases hturn with
  | enlist name c =>
      have hsame := (owes_start c (balanced_of_reachable r hr)).2
      rcases start_starts r c with ⟨hspares, hdistinct, hnew⟩
      have hnumbers : (r.enlist name c).numbers
          = r.numbers ++ (progressOf (r.start c).2).numbers := by
        unfold enlist numbers
        simp only [hsame, List.flatMap_append, List.flatMap_singleton]
      have horders := hspares.orders
      -- Numbers in use are below the next one, and those of the new calls are not.
      refine ⟨?_, fun m hm => ?_, hspares.below h.flights⟩
      · rw [hnumbers]
        refine List.nodup_append.mpr ⟨h.distinct, hdistinct, fun m hm n hn => ?_⟩
        have hlt := h.below m hm
        have hle := (hnew n hn).1
        omega
      · rw [hnumbers] at hm
        rcases List.mem_append.mp hm with hm | hm
        · exact Nat.lt_of_lt_of_le (h.below m hm) horders
        · exact (hnew m hm).2
  | work n errand herrand =>
      rcases activity?_of_errand? r n errand herrand with ⟨name, ha⟩
      rcases owes_running r n errand hr herrand with ⟨others, howes⟩
      rcases work_spares r errand with ⟨hspares, hsublist⟩
      exact orderly_setProgress n _ _ ha (owes_work errand howes).2 hspares hsublist h
  | release n errand herrand =>
      rcases activity?_of_errand? r n errand herrand with ⟨name, ha⟩
      rcases owes_running r n errand hr herrand with ⟨others, howes⟩
      exact orderly_setProgress n .givenUp _ ha (owes_release errand howes).2
        (release_spares r errand) (List.nil_sublist _) h
  | take n a ha herrand =>
      have hspares : Spares (fun _ => True) r r := .of_flights (Nat.le_refl _) rfl
      exact orderly_setProgress n .taken a ha rfl hspares (List.nil_sublist _) h
  | occur o =>
      have hspares : Spares (fun _ => True) r (r.occur o) := occur_spares r o
      exact h.of_unchanged hspares (occur_unchanged r o).2.2
  | clock now | wall wall | queue ready => exact ⟨h.distinct, h.below, h.flights⟩

theorem orderly_of_reachable (r : Rehearsal) (h : Reachable r) : Orderly r := by
  rcases h with ⟨s, hfresh, hreaches⟩
  induction hreaches with
  | refl =>
      rcases hfresh with ⟨hactivities, _, _, hflights⟩
      have hnone : s.numbers = [] := by
        unfold numbers
        rw [hactivities]
        rfl
      refine ⟨?_, ?_, ?_⟩
      · rw [hnone]
        exact List.nodup_nil
      · intro n hn
        rw [hnone] at hn
        exact absurd hn List.not_mem_nil
      · intro e he
        rw [hflights] at he
        exact absurd he List.not_mem_nil
  | tail hbefore hturn ih => exact orderly_turn _ _ ⟨s, hfresh, hbefore⟩ ih hturn

end Rehearsal

end Gateway
