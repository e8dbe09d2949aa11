import Gateway.Proofs.Rehearsal.Admission
import Gateway.Proofs.Switchboard.Counting

/-!
# Requests Are Counted as They Are Answered

The counter of requests sits at one place among the layers around the interface, and an answer may
come from either side of it. What comes from the handlers passes the counter on its way out, and no
layer after that changes the status. What the layers outside of the counter answer by themselves
does not: a request that only asks what is allowed, and one that takes too long, whose handler is
given up before it has anything to count.

Which answers these are can be told from outside. A request that asks what is allowed shows in its
method, and one that takes too long in a status that no handler uses, whatever becomes of its calls
(`answer_status_ne`, `Api.receive_status_ne`). So clients can keep a docket of what they asked and
what they received, and it says what has been counted: of each series the answers that came past
the counter, and of nothing else (`requests_counted`). The docket is kept turn by turn, as several
requests may be under way, and an answer is entered by the turn that gives it.

Everything else a rehearsal does leaves the counter alone. That calls are counted too, under series
of their own, is no matter here.

## Main definitions

* `seriesOf`, `isCounted`: What an answer belongs under, and whether it came past the counter.
* `Rehearsal.Records`: What comes of something is counted as it should be.
* `Docket`: What clients asked and what they received.
* `Rehearsal.Noted`, `Rehearsal.Documented`: The turns, and the docket that is kept of them.
* `Rehearsal.Faithful`: The docket agrees with what is counted.

## Theorems

* `Rehearsal.respond_status`: An answer goes out with the status that it was counted under.
* `Rehearsal.work_records`, `Rehearsal.start_records`: What an activity and a command add.
* `Rehearsal.faithful_noted`, `Rehearsal.faithful_of_documented`: The docket stays faithful.
* `Rehearsal.requests_counted`: What is counted of requests, after any run.
-/

namespace Gateway

open Http

/-! ## Statuses -/

theorem CallError.status_ne (e : CallError) : e.status ≠ 408 := by
  cases e <;> simp [CallError.status]

theorem ApiError.status_ne (e : ApiError) : e.status ≠ 408 := by
  cases e with
  | route e => exact e.status_ne
  | unauthorized m | tooManyRequests m wait | unavailable m | broadcast e =>
      simp [ApiError.status]

theorem ApiError.response_status_ne (e : ApiError) : e.response.status ≠ 408 := by
  rw [ApiError.response_status]
  exact e.status_ne

/-- No handler says that a request took too long, whatever became of its calls. -/
theorem Rehearsal.answer_status_ne (purpose : Purpose) (outcomes : List Outcome) :
    (Rehearsal.answer (purpose.conclude outcomes)).status ≠ 408 := by
  cases purpose with
  | single =>
      cases outcomes with
      | nil => simp [Purpose.conclude, Rehearsal.answer, Response.bare]
      | cons o rest =>
          simp only [Purpose.conclude, Rehearsal.answer, Api.created]
          split
          · simp [Response.ofJson, Response.ofContent]
          · exact ApiError.response_status_ne _
  | broadcast =>
      simp only [Purpose.conclude, Rehearsal.answer, Api.acknowledged]
      split
      · simp [Response.ofJson, Response.ofContent]
      · exact ApiError.response_status_ne _
  | probe =>
      simp only [Purpose.conclude, Rehearsal.answer, Api.probed]
      split <;> simp [Response.ofJson, Response.ofContent]

theorem Api.tell_status_ne (api : Api) (now : Nat) (targets : List Target)
    (exposition : List String) (route : Route) (response : Response)
    (h : api.tell now targets exposition route = .error response) : response.status ≠ 408 := by
  cases route with
  | backends => exact absurd h (by simp [Api.tell])
  | ready =>
      simp only [Api.tell, Except.error.injEq] at h
      subst h
      split <;> simp [Response.bare]
  | metrics =>
      simp only [Api.tell, Except.error.injEq] at h
      subst h
      split <;> simp [Response.ofText, Response.ofContent]
  | notifications | inventory | predictions | broadcast | authHealth | health | live | status =>
      simp only [Api.tell, Except.error.injEq] at h
      subst h
      simp [Response.ofJson, Response.ofContent, Response.bare]

theorem Api.forward_status_ne (api : Api) (now : Nat) (what : Route.Forward) (quota : Quota)
    (q : Http.Request) (response : Response)
    (h : (api.forward now what quota q).2 = .error response) : response.status ≠ 408 := by
  unfold Api.forward at h
  split at h
  · rw [← Except.error.inj h]
    exact ApiError.response_status_ne _
  · split at h
    · rename_i refusal hbody
      rw [← Except.error.inj h]
      have hstatus := Api.readBody_status q refusal hbody
      rintro hlate
      rw [hlate] at hstatus
      exact absurd hstatus (by decide)
    · split at h
      · rw [← Except.error.inj h]
        exact ApiError.response_status_ne _
      · exact absurd h (by simp only [reduceCtorEq, not_false_eq_true])

/-- Nor is it said on arrival. -/
theorem Api.receive_status_ne (api : Api) (now : Nat) (targets : List Target)
    (exposition : List String) (q : Http.Request) (response : Response)
    (h : (api.receive now targets exposition q).2.1 = .error response) : response.status ≠ 408 := by
  have hbare : ∀ status, status ≠ 408 → .error (.bare status) = (.error response : Reception)
      → response.status ≠ 408 := fun status hne hsame => by
    rw [← Except.error.inj hsame]
    exact hne
  unfold Api.receive at h
  split at h
  · exact hbare 404 (by decide) h
  · split at h
    · split at h
      · rw [← Except.error.inj h]
        exact ApiError.response_status_ne _
      · simp only at h
        split at h
        · exact Api.forward_status_ne _ _ _ _ _ _ h
        · exact hbare 405 (by decide) h
    · split at h
      · exact Api.tell_status_ne _ _ _ _ _ _ h
      · exact hbare 405 (by decide) h

namespace Rehearsal

/-- The layers that an answer passes leave its status as it is. -/
theorem respond_status (r : Rehearsal) (visit : Visit) (response : Response) :
    (r.respond visit response).2.status = response.status := by
  have hrefl := Response.Carries.refl response
  have henvelope : (if visit.counted then r.leave else r).envelope = r.envelope := by
    split
    · exact (leave_steady r).envelope
    · rfl
  -- An answer to a request for the head goes out without its body, and with the same status.
  cases hlayers : r.envelope with
  | none =>
      rw [hlayers] at henvelope
      rw [← (hrefl.addressed visit.request).1]
      simp only [respond, henvelope]
      split <;> rfl
  | some e =>
      rw [hlayers] at henvelope
      rw [← (((hrefl.withHeaders _).expose e visit.request).addressed visit.request).1]
      simp only [respond, henvelope]
      split <;> rfl

end Rehearsal

/-! ## What Is Left Alone -/

namespace Switchboard

section Requests

variable (b : Switchboard)

theorem count_requests (counted : Bool) (context : Context) (result : CallResult) :
    (b.count counted context result).metrics.requests = b.metrics.requests := by
  unfold count
  split <;> rfl

theorem finish_requests (f : Flight) (result : CallResult) (answered : Bool) :
    (b.finish f result answered).metrics.requests = b.metrics.requests := by
  rw [finish, count_requests, giveBack_metrics]
  cases answered <;> rfl

theorem hand_requests (layers : Layers) (index : Nat) (line : Line) (call : Call)
    (now order : Nat) :
    (b.hand layers index line call now order).1.metrics.requests = b.metrics.requests := by
  rcases hand_cases b layers index line call now order with
    ⟨result, answered, _, hhand⟩ | ⟨_, hhand⟩
  · rw [hhand, finish_requests]
    rfl
  · rw [hhand]
    rfl

theorem placeOn_requests (layers : Layers) (index : Nat) (call : Call) (now order : Nat) :
    (b.placeOn layers index call now order).1.metrics.requests = b.metrics.requests := by
  cases hline : b.lines[index]? with
  | none => rw [placeOn_of_no_line b layers index call now order hline]
  | some line =>
      by_cases hlimited : layers.limited = true
      · rcases placeOn_cases b layers index line call now order hlimited hline with
          ⟨_, hplace⟩ | ⟨hfree, hplace⟩
        · rw [hplace]
          exact count_requests b _ _ _
        · rw [hplace, hand_requests]
      · rw [placeOn_of_not_limited b layers index line call now order hlimited hline,
          hand_requests]

theorem place_requests (target : Target) (kind : CallKind) (pattern : String) (payload : Json)
    (timeout now order : Nat) :
    (b.place target kind pattern payload timeout now order).1.metrics.requests
      = b.metrics.requests := by
  rcases place_cases b target kind pattern payload timeout now order with
    ⟨_, hplace⟩ | ⟨index, line, _, _, hplace⟩
  · rw [hplace]
  · rw [hplace, placeOn_requests]

theorem land_requests (n now : Nat) :
    (b.land n now).1.metrics.requests = b.metrics.requests := by
  cases hf : b.flight? n with
  | none => rw [land_of_no_flight b n now hf]
  | some f =>
      cases hout : f.outcome? now with
      | none => rw [land_of_pending b n now f hf hout]
      | some out =>
          rw [land_of_due b n now f out.1 out.2 hf hout, finish_requests]
          rfl

theorem close_requests : b.close.metrics.requests = b.metrics.requests := by
  rcases close_eq b with ⟨trace, hclose, _⟩
  rw [hclose]

end Requests

end Switchboard

namespace Rehearsal

/-- What has been counted of requests. -/
def tally (r : Rehearsal) : Tally RequestSeries :=
  r.board.metrics.requests

section Tally

theorem landLegs_tally (r : Rehearsal) (legs : List Leg) : (r.landLegs legs).1.tally = r.tally := by
  induction legs generalizing r with
  | nil => rfl
  | cons leg legs ih =>
      rcases leg with ⟨target, result | n⟩
      · exact ih r
      · exact (ih { r with board := (r.board.land n r.now).1 }).trans
          (Switchboard.land_requests r.board n r.now)

theorem abandonLegs_tally (r : Rehearsal) (legs : List Leg) :
    (r.abandonLegs legs).tally = r.tally := by
  induction legs generalizing r with
  | nil => rfl
  | cons leg legs ih =>
      rcases leg with ⟨target, result | n⟩
      · exact ih r
      · exact (ih { r with board := r.board.abandon n }).trans
          (congrArg Metrics.requests (Switchboard.abandon_metrics r.board n))

theorem leave_tally (r : Rehearsal) : r.leave.tally = r.tally := by
  rcases leave_eq r with ⟨ready, hleave⟩
  rw [hleave]
  rfl

theorem withdraw_tally (r : Rehearsal) (legs : List Leg) (visit : Visit) :
    (r.withdraw legs visit).tally = r.tally := by
  unfold withdraw
  simp only
  split
  · rw [leave_tally, abandonLegs_tally]
  · exact abandonLegs_tally r legs

theorem occur_tally (r : Rehearsal) (o : Server.Occurrence) : (r.occur o).tally = r.tally := by
  -- Of what is done to the server, only closing the clients gets as far as the switchboard.
  have hacts : ∀ (actions : List Server.Action) (s : Rehearsal),
      (actions.foldl act s).tally = s.tally := by
    intro actions
    induction actions with
    | nil => exact fun s => rfl
    | cons a actions ih =>
        intro s
        have hact : (s.act a).tally = s.tally := by
          cases a with
          | closeClients => exact Switchboard.close_requests s.board
          | say level message | subscribe | setReady | trigger => rfl
        exact (ih (s.act a)).trans hact
  unfold occur
  cases r.stage with
  | none => rfl
  | some stage => exact hacts _ _

theorem finishServing_tally (r : Rehearsal) (limit : Timer) :
    (r.finishServing limit).1.tally = r.tally := by
  unfold finishServing
  split
  · rfl
  · exact occur_tally r .finished

theorem placeAll_tally (kind : CallKind) (pattern : String) (payload : Json) (timeout : Nat)
    (r : Rehearsal) (targets : List Target) :
    (placeAll kind pattern payload timeout r targets).1.tally = r.tally := by
  induction targets generalizing r with
  | nil => rfl
  | cons target targets ih =>
      exact (ih _).trans (Switchboard.place_requests r.board target kind pattern payload timeout
        r.now r.orders)

theorem inquire_tally (r : Rehearsal) (inquiry : Inquiry) :
    (r.inquire inquiry).1.tally = r.tally := by
  cases inquiry with
  | send target pattern payload => exact placeAll_tally .request pattern payload _ r [target]
  | broadcast pattern payload => exact placeAll_tally .event pattern payload _ r _
  | probe timeout => exact placeAll_tally .request _ _ timeout r _

end Tally

end Rehearsal

/-! ## What an Answer Adds -/

/-- What an answer belongs under: the route of the request, its method, and the status that the
    client received. -/
def seriesOf (q : Http.Request) (a : Response) : RequestSeries :=
  ⟨Route.label (Route.ofPath? q.path), q.method, a.status⟩

/-- Whether an answer has come past the counter. Where there are layers around the interface, the
    one that looks at origins answers whoever asks what is allowed, and the one that looks at the
    clock answers with a status that nothing inside of it uses. -/
def isCounted (layered : Bool) (q : Http.Request) (a : Response) : Bool :=
  !layered || (q.method != "OPTIONS" && a.status != 408)

/-- The request that a command sends. -/
def Command.asks : Command → Option Http.Request
  | .request (.ok sent) => some sent
  | _ => Option.none

/-- The answer in what comes of something. -/
def response? : Upshot ⊕ Errand → Option Response
  | .inl (.response a) => some a
  | _ => none

namespace Rehearsal

variable {r s : Rehearsal}

/-- What comes of something adds nothing to what is counted of requests, or it is an answer to a
    request, and adds that if it comes past the counter. -/
def Records (r s : Rehearsal) (asked : Option Http.Request) (what : Upshot ⊕ Errand) : Prop :=
  match response? what with
  | none => s.tally = r.tally
  | some a => ∃ q, asked = some q ∧ s.tally
    = if isCounted r.envelope.isSome q a then Tally.bump (seriesOf q a) r.tally else r.tally

theorem records_of_none (asked : Option Http.Request) (what : Upshot ⊕ Errand)
    (hwhat : response? what = none) (h : s.tally = r.tally) : Records r s asked what := by
  unfold Records
  rw [hwhat]
  exact h

/-- What is counted from one state on is counted from another, if as much was counted before. -/
theorem Records.congr {t : Rehearsal} {asked : Option Http.Request} {what : Upshot ⊕ Errand}
    (h : Records s t asked what) (htally : s.tally = r.tally)
    (henvelope : s.envelope = r.envelope) : Records r t asked what := by
  unfold Records at h ⊢
  rw [htally, henvelope] at h
  exact h

/-- One request stands for another, as far as counting goes. -/
def SameSeries (layered : Bool) (p q : Http.Request) : Prop :=
  ∀ a, seriesOf p a = seriesOf q a ∧ isCounted layered p a = isCounted layered q a

theorem Records.of_sameSeries {p q : Http.Request} {what : Upshot ⊕ Errand}
    (h : Records r s (some p) what) (hsame : SameSeries r.envelope.isSome p q) :
    Records r s (some q) what := by
  unfold Records at h ⊢
  split at h
  · exact h
  · rename_i a _
    rcases h with ⟨_, hp, htally⟩
    rw [← Option.some.inj hp, (hsame a).1, (hsame a).2] at htally
    exact ⟨q, rfl, htally⟩

/-- An answer from a handler is counted, under the status that goes out. -/
theorem reply_records (visit : Visit) (response : Response)
    (hmethod : r.envelope.isSome → visit.request.method ≠ "OPTIONS")
    (hstatus : response.status ≠ 408) :
    Records r (r.reply visit response).1 (some visit.request) (r.reply visit response).2 := by
  have hsame := respond_status r visit response
  have hcounted :
      isCounted r.envelope.isSome visit.request (r.respond visit response).2 = true := by
    unfold isCounted
    cases henvelope : r.envelope with
    | none => rfl
    | some e =>
        -- Neither of the layers outside of the counter can have given this answer.
        rw [henvelope] at hmethod
        simp [hmethod rfl, hsame, hstatus]
  have htally : (if visit.counted then r.leave else r).tally = r.tally := by
    split
    · exact leave_tally r
    · rfl
  refine ⟨visit.request, rfl, ?_⟩
  rw [reply, hcounted, if_pos rfl, seriesOf, hsame, ← htally]
  rfl

/-- Something that works for no request gives no answer and counts none. -/
theorem work_tally (errand : Errand) (h : errand.visit? = none) :
    (r.work errand).1.tally = r.tally ∧ response? (r.work errand).2 = none := by
  cases errand with
  | calls legs purpose visit =>
      cases visit with
      | some visit => exact absurd h (Option.some_ne_none visit)
      | none =>
          simp only [work]
          split
          · refine ⟨landLegs_tally r legs, ?_⟩
            unfold Purpose.conclude
            split <;> rfl
          · exact ⟨landLegs_tally r legs, rfl⟩
  | letGo name timer =>
      simp only [work]
      split
      · split
        · exact ⟨leave_tally _, rfl⟩
        · exact ⟨rfl, rfl⟩
      · exact ⟨rfl, rfl⟩
  | drain limit =>
      simp only [work]
      split
      · exact ⟨rfl, rfl⟩
      · split <;> exact ⟨rfl, rfl⟩
  | shutdown limit =>
      have hfinish : ∀ s : Rehearsal, response? (s.finishServing limit).2 = none := by
        intro s
        unfold finishServing
        split <;> rfl
      simp only [work]
      split
      · split
        · exact ⟨(finishServing_tally _ limit).trans (occur_tally _ .idle), hfinish _⟩
        · split
          · exact ⟨occur_tally r .overdue, rfl⟩
          · exact ⟨rfl, rfl⟩
      · exact ⟨finishServing_tally r limit, hfinish r⟩
      · exact ⟨rfl, rfl⟩

/-- A request that works is answered as late and not counted, answered and counted, or goes on. -/
theorem work_records (legs : List Leg) (purpose : Purpose) (visit : Visit)
    (hmethod : r.envelope.isSome → visit.request.method ≠ "OPTIONS") :
    Records r (r.work (.calls legs purpose (some visit))).1 (some visit.request)
      (r.work (.calls legs purpose (some visit))).2 := by
  rcases work_visit_cases r legs purpose visit with
    ⟨e, henvelope, _, hwork⟩ | ⟨outcomes, _, hwork⟩ | hwork
  · -- The handler is given up with its calls, and with it the counter.
    have hlate : isCounted true visit.request
        (Api.addressed visit.request (e.late visit.request)) = false := by
      simp [isCounted, (late_carries e visit.request).1, Response.bare]
    rw [hwork]
    refine ⟨visit.request, rfl, ?_⟩
    rw [henvelope, Option.isSome_some, hlate, withdraw_tally]
    rfl
  · -- What the calls left is what the handler answers from.
    have henvelope := (landLegs_steady r legs).envelope
    have hreply := reply_records (r := (r.landLegs legs).1) visit
      (answer (purpose.conclude outcomes)) (by rwa [henvelope])
      (answer_status_ne purpose outcomes)
    rw [hwork]
    exact hreply.congr (landLegs_tally r legs) henvelope
  · rw [hwork]
    exact records_of_none _ _ rfl (landLegs_tally r legs)

theorem method_of_letsIn (q : Http.Request) (h : r.LetsIn q) :
    r.envelope.isSome → q.method ≠ "OPTIONS" := fun hsome => by
  rcases Option.isSome_iff_exists.mp hsome with ⟨e, henvelope⟩
  exact (h e henvelope).1

/-- A request that arrives is answered by the layers and not counted, answered and counted, or
    waits. -/
theorem visit_records (q : Http.Request) : Records r (r.visit q).1 (some q) (r.visit q).2 := by
  by_cases hletsIn : r.LetsIn q
  · have hmethod := method_of_letsIn q hletsIn
    rw [visit_of_letsIn r q hletsIn]
    unfold takeIn
    rcases hreceive : r.api.receive r.now r.board.targets r.board.metrics.exposition q with
      ⟨api, response | inquiry, counted⟩
    · have hstatus := Api.receive_status_ne r.api r.now r.board.targets r.board.metrics.exposition q
        response (by rw [hreceive])
      exact reply_records (r := { r.numbered with api := api }) (r.pending q counted) response
        hmethod hstatus
    · have hinquire := inquire_fixed { r.numbered with api := api } inquiry
      have htally := inquire_tally { r.numbered with api := api } inquiry
      have hwork := work_records (r := ({ r.numbered with api := api }.inquire inquiry).1)
        ({ r.numbered with api := api }.inquire inquiry).2.1
        ({ r.numbered with api := api }.inquire inquiry).2.2 (r.pending q counted)
        (by rw [hinquire.envelope]; exact hmethod)
      exact hwork.congr htally hinquire.envelope
  · rcases visit_of_not_letsIn r q hletsIn with ⟨e, timers, a, henvelope, haround, hvisit⟩
    have hnot : isCounted true q a = false := by
      unfold isCounted
      rcases haround with hmethod | hlate
      · simp [hmethod]
      · simp [hlate, (late_carries e q).1, Response.bare]
    rw [hvisit]
    refine ⟨q, rfl, ?_⟩
    rw [henvelope, Option.isSome_some, hnot]
    rfl

/-- A request as it arrives stands for the one that was sent. -/
theorem sameSeries_received (sent q : Http.Request) (h : r.received? sent = some q) :
    SameSeries r.envelope.isSome q sent := by
  unfold received? at h
  split at h
  · rw [Option.some.inj h]
    exact fun a => ⟨rfl, rfl⟩
  · split at h
    · rw [← Option.some.inj h]
      exact fun a => ⟨rfl, rfl⟩
    · exact absurd h.symm (Option.some_ne_none q)

/-- Whatever a command is, nothing is counted but the answer to the request that it sends. -/
theorem start_records (c : Command) : Records r (r.start c).1 c.asks (r.start c).2 := by
  -- Most commands start an errand that works for no request, after placing calls or setting a
  -- timer.
  have hwork : ∀ (s : Rehearsal) (errand : Errand), s.tally = r.tally → errand.visit? = none →
      Records r (s.work errand).1 none (s.work errand).2 := fun s errand hs herrand => by
    rcases work_tally (r := s) errand herrand with ⟨htally, hwhat⟩
    exact records_of_none none _ hwhat (htally.trans hs)
  cases c with
  | request received =>
      cases received with
      | error fault => exact rfl
      | ok sent =>
          rw [start_request]
          cases hreceived : r.received? sent with
          | none => exact rfl
          | some q =>
              rw [Option.elim_some]
              exact (visit_records q).of_sameSeries (sameSeries_received sent q hreceived)
  | place kind target pattern payload timeout =>
      exact hwork _ (.calls _ _ none)
        (placeAll_tally kind pattern payload (timeout.getD r.board.defaultTimeout) r [target]) rfl
  | placeOn layers line context pattern payload =>
      have hplace := Switchboard.placeOn_requests r.board layers line ⟨context, pattern, payload⟩
        r.now r.orders
      exact hwork
        { r with
          board := (r.board.placeOn layers line ⟨context, pattern, payload⟩ r.now r.orders).1
          orders := r.orders + 2 } (.calls _ _ none) hplace rfl
  | broadcast pattern payload timeout =>
      exact hwork _ (.calls _ _ none) (placeAll_tally .event pattern payload _ r _) rfl
  | probe timeout =>
      exact hwork _ (.calls _ _ none) (placeAll_tally .request _ _ timeout r _) rfl
  | close => exact Switchboard.close_requests r.board
  | hold name =>
      simp only [start, shows]
      refine records_of_none none _ rfl ?_
      split
      · exact leave_tally _
      · rfl
  | letGo name after =>
      cases after with
      | none => exact hwork r (.letGo name _) rfl rfl
      | some ms => exact hwork (r.timer ms).1 (.letGo name _) rfl rfl
  | drain limit => exact hwork (r.timer limit).1 (.drain _) rfl rfl
  | stop limit =>
      exact hwork ((r.occur .stop).timer limit).1 (.shutdown _) (occur_tally r .stop) rfl
  | look name =>
      simp only [start, shows]
      split <;> exact rfl
  | unsubscribe name =>
      simp only [start, shows]
      split <;> exact rfl
  | none | targets | wiring | free | setReady | trigger | phase | subscribe name | sweep longest
    | tracked => exact rfl

theorem release_tally (errand : Errand) : (r.release errand).tally = r.tally := by
  cases errand with
  | calls legs purpose visit =>
      cases visit with
      | none => exact abandonLegs_tally r legs
      | some visit => exact withdraw_tally r legs visit
  | letGo name timer | drain limit | shutdown limit => rfl

end Rehearsal

/-! ## The Docket -/

/-- What clients know of their requests. -/
structure Docket where
  -- One entry for each activity, in the order they were started in; most ask for nothing.
  asked : List (Option Http.Request) := []
  -- With what the client received, latest first.
  answered : List (Http.Request × Response) := []

namespace Docket

/-- Enters what came of something that was started for a request, or for none. -/
def enter (d : Docket) (asked : Option Http.Request) (what : Upshot ⊕ Errand) : Docket :=
  match asked, response? what with
  | some q, some a => { d with answered := (q, a) :: d.answered }
  | _, _ => d

/-- The answers that have come past the counter. -/
def counted (d : Docket) (layered : Bool) : List (Http.Request × Response) :=
  d.answered.filter fun e => isCounted layered e.1 e.2

/-- How many answers that have come past the counter belong under a series. -/
def recorded (d : Docket) (layered : Bool) (s : RequestSeries) : Nat :=
  (d.counted layered).countP fun e => seriesOf e.1 e.2 = s

theorem asked_enter (d : Docket) (asked : Option Http.Request) (what : Upshot ⊕ Errand) :
    (d.enter asked what).asked = d.asked := by
  unfold enter
  split <;> rfl

theorem mem_enter (d : Docket) (asked : Option Http.Request) (what : Upshot ⊕ Errand)
    (x : Http.Request × Response) (h : x ∈ d.answered) : x ∈ (d.enter asked what).answered := by
  unfold enter
  split
  · exact List.mem_cons_of_mem _ h
  · exact h

theorem mem_enter_self (d : Docket) (q : Http.Request) (b : Response) :
    (q, b) ∈ (d.enter (some q) (.inl (.response b))).answered :=
  List.mem_cons_self

theorem counted_cons (d : Docket) (layered : Bool) (q : Http.Request) (a : Response) :
    ({ d with answered := (q, a) :: d.answered } : Docket).counted layered
      = if isCounted layered q a then (q, a) :: d.counted layered else d.counted layered :=
  List.filter_cons

end Docket

namespace Rehearsal

variable {r s : Rehearsal}

/-- The turns of a rehearsal, and what clients enter in their docket. -/
inductive Noted : Rehearsal × Docket → Rehearsal × Docket → Prop
  -- A command may be a request that is answered at once, and an activity one that is answered now.
  | enlist (r : Rehearsal) (d : Docket) (name : Option String) (c : Command) :
      Noted (r, d) (r.enlist name c,
        ({ d with asked := d.asked ++ [c.asks] } : Docket).enter c.asks (r.start c).2)
  | work (r : Rehearsal) (d : Docket) (n : Nat) (errand : Errand) (h : r.errand? n = some errand) :
      Noted (r, d) ((r.work errand).1.setProgress n (progressOf (r.work errand).2),
        d.enter d.asked[n]?.join (r.work errand).2)
  -- All other turns answer nothing, and nothing is entered.
  | release (r : Rehearsal) (d : Docket) (n : Nat) (errand : Errand)
      (h : r.errand? n = some errand) :
      Noted (r, d) ((r.release errand).setProgress n .givenUp, d)
  | take (r : Rehearsal) (d : Docket) (n : Nat) (a : Activity) (ha : r.activities[n]? = some a)
      (h : r.errand? n = none) : Noted (r, d) (r.setProgress n .taken, d)
  | occur (r : Rehearsal) (d : Docket) (o : Server.Occurrence) : Noted (r, d) (r.occur o, d)
  | clock (r : Rehearsal) (d : Docket) (now : Nat) : Noted (r, d) ({ r with now := now }, d)
  | wall (r : Rehearsal) (d : Docket) (wall : Nat) :
      Noted (r, d) ({ r with api := { r.api with wall := wall } }, d)
  | queue (r : Rehearsal) (d : Docket) (ready : List Nat) :
      Noted (r, d) ({ r with ready := ready }, d)

/-- What a run of turns makes of a rehearsal and a docket. -/
def Documented : Rehearsal × Docket → Rehearsal × Docket → Prop :=
  Relation.ReflTransGen Noted

/-- Whatever a rehearsal does, there is a docket that is kept of it. -/
theorem exists_documented {r s : Rehearsal} (d : Docket) (h : Reaches r s) :
    ∃ e, Documented (r, d) (s, e) := by
  induction h with
  | refl => exact ⟨d, Relation.ReflTransGen.refl⟩
  | tail _ hturn ih =>
      rcases ih with ⟨e, he⟩
      cases hturn with
      | enlist name c => exact ⟨_, he.tail (Noted.enlist _ e name c)⟩
      | work n errand herrand => exact ⟨_, he.tail (Noted.work _ e n errand herrand)⟩
      | release n errand herrand => exact ⟨_, he.tail (Noted.release _ e n errand herrand)⟩
      | take n a ha herrand => exact ⟨_, he.tail (Noted.take _ e n a ha herrand)⟩
      | occur o => exact ⟨_, he.tail (Noted.occur _ e o)⟩
      | clock now => exact ⟨_, he.tail (Noted.clock _ e now)⟩
      | wall wall => exact ⟨_, he.tail (Noted.wall _ e wall)⟩
      | queue ready => exact ⟨_, he.tail (Noted.queue _ e ready)⟩

/-- What is counted of requests is what the docket has of answers that came past the counter. -/
structure Agrees (layered : Bool) (t : Tally RequestSeries) (d : Docket) : Prop where
  count_eq : ∀ s, t.count s = d.recorded layered s
  total_eq : t.total = (d.counted layered).length
  distinct : (t.map Prod.fst).Nodup

theorem Agrees.enter {d e : Docket} {asked : Option Http.Request} {what : Upshot ⊕ Errand}
    (h : Agrees r.envelope.isSome r.tally d) (hsame : e.answered = d.answered)
    (hrecords : Records r s asked what) :
    Agrees r.envelope.isSome s.tally (e.enter asked what) := by
  have hkept : Agrees r.envelope.isSome r.tally e := by
    refine ⟨fun x => ?_, ?_, h.distinct⟩
    · rw [h.count_eq x, Docket.recorded, Docket.recorded, Docket.counted, Docket.counted, hsame]
    · rw [h.total_eq, Docket.counted, Docket.counted, hsame]
  unfold Records at hrecords
  unfold Docket.enter
  cases hwhat : response? what with
  | none =>
      rw [hwhat] at hrecords
      rw [hrecords]
      cases asked <;> exact hkept
  | some a =>
      rw [hwhat] at hrecords
      rcases hrecords with ⟨q, rfl, htally⟩
      rw [htally]
      have hentered := e.counted_cons r.envelope.isSome q a
      -- An answer that came past the counter is entered on both sides, any other on one.
      simp only
      split
      · rename_i hcounted
        rw [if_pos hcounted] at hentered
        refine ⟨fun x => ?_, ?_, Tally.nodup_bump _ _ hkept.distinct⟩
        · rw [Tally.count_bump, hkept.count_eq x, Docket.recorded, Docket.recorded, hentered,
            List.countP_cons]
          simp only [decide_eq_true_eq]
        · rw [Tally.total_bump, hkept.total_eq, hentered, List.length_cons]
      · rename_i hcounted
        rw [if_neg hcounted] at hentered
        refine ⟨fun x => ?_, ?_, hkept.distinct⟩
        · rw [hkept.count_eq x, Docket.recorded, Docket.recorded, hentered]
        · rw [hkept.total_eq, hentered]

/-- The docket has what each activity was started for and every answer that a client received, and
    agrees with what is counted. A request that waits stands for what was asked. -/
structure Faithful (r : Rehearsal) (d : Docket) : Prop where
  length_eq : d.asked.length = r.activities.length
  -- As it arrives, a request may be another than was sent, but not one that is counted otherwise.
  waits : ∀ (n : Nat) (a : Activity) (v : Visit), r.activities[n]? = some a →
    a.progress.visit? = some v → ∃ q, d.asked[n]? = some (some q)
      ∧ SameSeries r.envelope.isSome v.request q
      ∧ (r.envelope.isSome → v.request.method ≠ "OPTIONS")
  received : ∀ (n : Nat) (a : Activity) (b : Response), r.activities[n]? = some a →
    a.progress = .ended (.response b) → ∃ q, d.asked[n]? = some (some q) ∧ (q, b) ∈ d.answered
  agrees : Agrees r.envelope.isSome r.tally d

/-- An activity that stands otherwise than it did leaves the docket faithful, if it waits for no
    other request and its answer is entered. -/
theorem Faithful.setProgress {d e : Docket} (h : Faithful r d) (hfixed : Fixed r s) (n : Nat)
    (a : Activity) (p : Progress) (ha : r.activities[n]? = some a) (hasked : e.asked = d.asked)
    (hanswered : ∀ x ∈ d.answered, x ∈ e.answered)
    (hwaits : ∀ v, p.visit? = some v → a.progress.visit? = some v)
    (hreceived : ∀ b, p = .ended (.response b) →
      ∃ q, d.asked[n]? = some (some q) ∧ (q, b) ∈ e.answered)
    (hagrees : Agrees r.envelope.isSome s.tally e) : Faithful (s.setProgress n p) e := by
  rw [setProgress_of_activity r s n p a ha hfixed.activities]
  refine ⟨?_, ?_, ?_, ?_⟩
  · rw [hasked, h.length_eq, List.length_set]
  · intro m b v hb hv
    simp only [hfixed.envelope, hasked]
    rw [List.getElem?_set] at hb
    split at hb
    · rename_i hm
      split at hb
      · rw [← Option.some.inj hb] at hv
        exact hm ▸ h.waits n a v ha (hwaits v hv)
      · exact absurd hb.symm (Option.some_ne_none b)
    · exact h.waits m b v hb hv
  · intro m b answer hb hended
    rw [hasked]
    rw [List.getElem?_set] at hb
    split at hb
    · rename_i hm
      split at hb
      · rw [← Option.some.inj hb] at hended
        exact hm ▸ hreceived answer hended
      · exact absurd hb.symm (Option.some_ne_none b)
    · rcases h.received m b answer hb hended with ⟨q, hq, hmem⟩
      exact ⟨q, hq, hanswered _ hmem⟩
  · simp only [hfixed.envelope]
    exact hagrees

theorem response?_eq_some {what : Upshot ⊕ Errand} {b : Response}
    (h : progressOf what = .ended (.response b)) : what = .inl (.response b) := by
  cases what with
  | inl outcome => rw [Progress.ended.inj h]
  | inr errand => exact absurd h Progress.noConfusion

theorem faithful_work {d : Docket} (h : Faithful r d) (n : Nat) (errand : Errand)
    (herrand : r.errand? n = some errand) :
    Faithful ((r.work errand).1.setProgress n (progressOf (r.work errand).2))
      (d.enter d.asked[n]?.join (r.work errand).2) := by
  rcases activity?_of_errand? r n errand herrand with ⟨name, ha⟩
  -- What the activity was started for is in the docket, at the place of the activity.
  have hrecords : Records r (r.work errand).1 d.asked[n]?.join (r.work errand).2 := by
    cases hvisit : errand.visit? with
    | none =>
        rcases work_tally errand hvisit with ⟨htally, hwhat⟩
        exact records_of_none _ _ hwhat htally
    | some v =>
        rcases h.waits n _ v ha hvisit with ⟨q, hq, hsame, hmethod⟩
        rw [hq]
        cases errand with
        | calls legs purpose visit =>
            rw [show visit = some v from hvisit]
            exact (work_records legs purpose v hmethod).of_sameSeries hsame
        | letGo name timer | drain limit | shutdown limit => contradiction
  refine h.setProgress (work_steady r errand).toFixed n _ _ ha (d.asked_enter _ _)
    (fun x hx => d.mem_enter _ _ x hx) (fun v hv => visit?_work r errand v hv) (fun b hb => ?_)
    (h.agrees.enter rfl hrecords)
  -- An answer is given to the request that was asked, and entered for it.
  have hwhat := response?_eq_some hb
  unfold Records at hrecords
  rw [hwhat] at hrecords ⊢
  rcases hrecords with ⟨q, hq, _⟩
  rw [hq]
  exact ⟨q, Option.join_eq_some_iff.mp hq, d.mem_enter_self q b⟩

/-- What there is after a command was started was there before, or is what was started. -/
theorem activity_enlist {name : Option String} {c : Command} {n : Nat} {a : Activity}
    (h : (r.enlist name c).activities[n]? = some a) :
    r.activities[n]? = some a
      ∨ (n = r.activities.length ∧ a = ⟨name, progressOf (r.start c).2⟩) := by
  unfold enlist at h
  simp only [(start_fixed r c).activities] at h
  rcases Nat.lt_or_ge n r.activities.length with hlt | hge
  · rw [List.getElem?_append_left hlt] at h
    exact Or.inl h
  · rw [List.getElem?_append_right hge] at h
    have hmem := List.mem_of_getElem? h
    have hlt := (List.getElem?_eq_some_iff.mp h).1
    rw [List.length_singleton] at hlt
    exact Or.inr ⟨by omega, List.mem_singleton.mp hmem⟩

theorem faithful_enlist {d : Docket} (h : Faithful r d) (name : Option String) (c : Command) :
    Faithful (r.enlist name c)
      (({ d with asked := d.asked ++ [c.asks] } : Docket).enter c.asks (r.start c).2) := by
  have hfixed := start_fixed r c
  have hrecords := start_records (r := r) c
  have hnew : (d.asked ++ [c.asks])[r.activities.length]? = some c.asks := by
    rw [← h.length_eq]
    exact List.getElem?_concat_length
  have hold : ∀ (n : Nat) (a : Activity), r.activities[n]? = some a →
      (d.asked ++ [c.asks])[n]? = d.asked[n]? := fun n a ha => by
    have hlt := (List.getElem?_eq_some_iff.mp ha).1
    exact List.getElem?_append_left (h.length_eq ▸ hlt)
  have henvelope : (r.enlist name c).envelope = r.envelope := hfixed.envelope
  -- What was there keeps its place, and what is new stands last on both sides.
  refine ⟨?_, ?_, ?_, ?_⟩
  · rw [Docket.asked_enter, enlist, hfixed.activities, List.length_append, List.length_append,
      h.length_eq]
    rfl
  · intro n a v ha hv
    rw [Docket.asked_enter, henvelope]
    rcases activity_enlist ha with hbefore | ⟨rfl, rfl⟩
    · rw [hold n a hbefore]
      exact h.waits n a v hbefore hv
    · rcases visit?_start r c v hv with ⟨sent, q, counted, rfl, hreceived, hletsIn, rfl⟩
      exact ⟨sent, hnew, sameSeries_received sent q hreceived, method_of_letsIn q hletsIn⟩
  · intro n a b ha hended
    rw [Docket.asked_enter]
    rcases activity_enlist ha with hbefore | ⟨rfl, rfl⟩
    · rw [hold n a hbefore]
      rcases h.received n a b hbefore hended with ⟨q, hq, hmem⟩
      exact ⟨q, hq, Docket.mem_enter _ _ _ _ hmem⟩
    · have hwhat := response?_eq_some hended
      unfold Records at hrecords
      rw [hwhat] at hrecords ⊢
      rcases hrecords with ⟨q, hq, _⟩
      rw [hq] at hnew ⊢
      exact ⟨q, hnew, Docket.mem_enter_self _ q b⟩
  · rw [henvelope]
    exact h.agrees.enter (e := { d with asked := d.asked ++ [c.asks] }) rfl hrecords

theorem faithful_noted {d e : Docket} (h : Faithful r d) (hnoted : Noted (r, d) (s, e)) :
    Faithful s e := by
  cases hnoted with
  | enlist _ _ name c => exact faithful_enlist h name c
  | work _ _ n errand herrand => exact faithful_work h n errand herrand
  | release _ _ n errand herrand =>
      rcases activity?_of_errand? r n errand herrand with ⟨name, ha⟩
      refine h.setProgress (release_steady r errand).toFixed n _ .givenUp ha rfl
        (fun x hx => hx) (fun v hv => absurd hv (Option.some_ne_none v).symm)
        (fun b hb => Progress.noConfusion hb) ?_
      rw [release_tally]
      exact h.agrees
  | take _ _ n a ha herrand =>
      exact h.setProgress (Steady.refl r).toFixed n _ .taken ha rfl (fun x hx => hx)
        (fun v hv => absurd hv (Option.some_ne_none v).symm)
        (fun b hb => Progress.noConfusion hb) h.agrees
  | occur _ _ o =>
      have hfixed := occur_fixed r o
      refine ⟨?_, ?_, ?_, ?_⟩
      · rw [hfixed.activities]
        exact h.length_eq
      · rw [hfixed.activities, hfixed.envelope]
        exact h.waits
      · rw [hfixed.activities]
        exact h.received
      · rw [hfixed.envelope, occur_tally]
        exact h.agrees
  | clock _ _ now => exact ⟨h.length_eq, h.waits, h.received, h.agrees⟩
  | wall _ _ wall => exact ⟨h.length_eq, h.waits, h.received, h.agrees⟩
  | queue _ _ ready => exact ⟨h.length_eq, h.waits, h.received, h.agrees⟩

theorem faithful_of_documented {start after : Rehearsal × Docket}
    (h : Faithful start.1 start.2) (hrun : Documented start after) :
    Faithful after.1 after.2 := by
  induction hrun with
  | refl => exact h
  | tail _ hnoted ih => exact faithful_noted ih hnoted

theorem faithful_of_fresh (hfresh : r.IsFresh) (htally : r.tally = []) : Faithful r {} := by
  refine ⟨?_, ?_, ?_, ?_⟩
  · rw [hfresh.1]
    rfl
  · intro n a v ha
    rw [hfresh.1] at ha
    exact absurd ha.symm (Option.some_ne_none a)
  · intro n a b ha
    rw [hfresh.1] at ha
    exact absurd ha.symm (Option.some_ne_none a)
  · rw [htally]
    exact ⟨fun s => rfl, rfl, List.nodup_nil⟩

theorem answered_enter (d : Docket) (asked : Option Http.Request) (what : Upshot ⊕ Errand) :
    (d.enter asked what).answered = d.answered
      ∨ ∃ q a, (d.enter asked what).answered = (q, a) :: d.answered := by
  unfold Docket.enter
  split
  · exact Or.inr ⟨_, _, rfl⟩
  · exact Or.inl rfl

theorem answered_of_noted {d e : Docket} (h : Noted (r, d) (s, e)) :
    e.answered = d.answered ∨ ∃ q a, e.answered = (q, a) :: d.answered := by
  cases h with
  | enlist _ _ name c => exact answered_enter { d with asked := d.asked ++ [c.asks] } _ _
  | work _ _ n errand herrand => exact answered_enter d _ _
  | release _ _ n errand herrand | take _ _ n a ha herrand | occur _ _ o | clock _ _ now
    | wall _ _ wall | queue _ _ ready => exact Or.inl rfl

theorem turn_of_noted {d e : Docket} (h : Noted (r, d) (s, e)) : Turn r s := by
  cases h with
  | enlist _ _ name c => exact Turn.enlist r name c
  | work _ _ n errand herrand => exact Turn.work r n errand herrand
  | release _ _ n errand herrand => exact Turn.release r n errand herrand
  | take _ _ n a ha herrand => exact Turn.take r n a ha herrand
  | occur _ _ o => exact Turn.occur r o
  | clock _ _ now => exact Turn.clock r now
  | wall _ _ wall => exact Turn.wall r wall
  | queue _ _ ready => exact Turn.queue r ready

/-- What one turn adds to what is counted. -/
theorem tally_of_noted {d e : Docket} (h : Faithful r d) (hnoted : Noted (r, d) (s, e)) :
    (e.answered = d.answered ∧ ∀ x, s.tally.count x = r.tally.count x)
      ∨ ∃ q a, e.answered = (q, a) :: d.answered ∧ ∀ x, s.tally.count x = r.tally.count x
        + if isCounted r.envelope.isSome q a = true ∧ seriesOf q a = x then 1 else 0 := by
  -- Both dockets agree with what is counted, and they differ by one answer at most.
  have hafter := (faithful_noted h hnoted).agrees
  rw [(setup_turn (turn_of_noted hnoted)).1] at hafter
  have hcounted : ∀ answered, e.answered = answered → e.counted r.envelope.isSome
      = answered.filter fun x => isCounted r.envelope.isSome x.1 x.2 := fun _ he => by
    rw [Docket.counted, he]
  rcases answered_of_noted hnoted with hsame | ⟨q, a, hcons⟩
  · refine Or.inl ⟨hsame, fun x => ?_⟩
    rw [hafter.count_eq x, h.agrees.count_eq x, Docket.recorded, Docket.recorded,
      hcounted _ hsame, Docket.counted]
  · refine Or.inr ⟨q, a, hcons, fun x => ?_⟩
    rw [hafter.count_eq x, h.agrees.count_eq x, Docket.recorded, Docket.recorded,
      hcounted _ hcons, List.filter_cons, Docket.counted]
    by_cases hpast : isCounted r.envelope.isSome q a = true
    · rw [if_pos hpast, List.countP_cons]
      simp only [decide_eq_true_eq, hpast, true_and]
    · rw [if_neg hpast, if_neg fun hc => hpast hc.1, Nat.add_zero]

/-- What is counted of requests, after any turns of any rehearsal in any order, against the docket
    that clients keep. A series counts the answers that came past the counter and belong under it,
    by the route, the method and the status that the client received, and the sum over all series,
    none of which is listed twice, is the number of these answers. That is every answer there was
    exactly if none was given by the layers outside of the counter, which are those to requests
    that ask what is allowed and those that are too late. Each answer that a client can take is in
    the docket, under its request. Every turn adds one answer at most, which adds one to its own
    series and nothing to any other, if it came past the counter, and nothing at all if it did not.
    And every step of a rehearsal goes on so. -/
theorem requests_counted (start r : Rehearsal) (d : Docket) (hfresh : start.IsFresh)
    (htally : start.tally = []) (h : Documented (start, {}) (r, d)) :
    (∀ x, r.tally.count x = (d.answered.filter fun e => isCounted r.envelope.isSome e.1 e.2).countP
        fun e => seriesOf e.1 e.2 = x)
      ∧ r.tally.total
        = (d.answered.filter fun e => isCounted r.envelope.isSome e.1 e.2).length
      ∧ (r.tally.map Prod.fst).Nodup
      ∧ (r.tally.total = d.answered.length
        ↔ ∀ e ∈ d.answered, isCounted r.envelope.isSome e.1 e.2 = true)
      ∧ (∀ (n : Nat) (a : Activity) (b : Response), r.activities[n]? = some a →
        a.progress = .ended (.response b) →
        ∃ q, d.asked[n]? = some (some q) ∧ (q, b) ∈ d.answered)
      ∧ (∀ s e, Noted (r, d) (s, e) →
        (e.answered = d.answered ∧ ∀ x, s.tally.count x = r.tally.count x)
        ∨ ∃ q a, e.answered = (q, a) :: d.answered ∧ ∀ x, s.tally.count x = r.tally.count x
          + if isCounted r.envelope.isSome q a = true ∧ seriesOf q a = x then 1 else 0)
      ∧ ∀ step, ∃ e, Documented (r, d) ((r.step step).1, e) := by
  have hfaithful : Faithful r d := faithful_of_documented (faithful_of_fresh hfresh htally) h
  have hagrees := hfaithful.agrees
  refine ⟨hagrees.count_eq, hagrees.total_eq, hagrees.distinct, ?_, hfaithful.received,
    fun s e hnoted => tally_of_noted hfaithful hnoted, fun step => ?_⟩
  · rw [hagrees.total_eq]
    exact List.length_filter_eq_length_iff
  · exact exists_documented d (step_reaches r step)

/-- A gateway with one backend, which takes longer to answer than a request may. -/
def hurried : Rehearsal where
  board := .ofLines [(.notification, .ofScript [⟨some 200, some (.ok .null)⟩])] 1 5000
  api := { secret := "k", probeTimeout := 2000, recorded := true, wall := 0 }
  envelope := some ⟨.any, 50⟩

def bodiless (method path : String) : Http.Request :=
  ⟨method, path, [], []⟩

/-- The time for the second of two requests is up. -/
def overdue : Rehearsal :=
  { (hurried.enlist none (.request (.ok (bodiless "GET" "/health")))).enlist none
      (.request (.ok (bodiless "GET" "/system/monitoring/health"))) with now := 50 }

theorem overdue_runs : (overdue.errand? 1).isSome = true := by decide +kernel

/-- A request that the server answers by itself is counted, and one that waits for the backend for
    too long is answered as well and is not. -/
theorem requests_counted_hurried : ∃ r d, hurried.IsFresh ∧ hurried.tally = []
    ∧ Documented (hurried, {}) (r, d) ∧ d.answered.length = 2 ∧ r.tally.total = 1
    ∧ r.tally.count ⟨"/health", "GET", 200⟩ = 1 := by
  have hfresh : hurried.IsFresh := ⟨rfl, rfl, rfl, rfl⟩
  have hrun : Documented (hurried, {}) _ :=
    (((Relation.ReflTransGen.single
      (Noted.enlist hurried {} none (.request (.ok (bodiless "GET" "/health"))))).tail
      (Noted.enlist _ _ none (.request (.ok (bodiless "GET" "/system/monitoring/health"))))).tail
      (Noted.clock _ _ 50)).tail
      (Noted.work overdue _ 1 _ (Option.some_get overdue_runs).symm)
  rcases requests_counted hurried _ _ hfresh rfl hrun with ⟨hcount, htotal, _⟩
  refine ⟨_, _, hfresh, rfl, hrun, ?_, htotal.trans ?_, (hcount _).trans ?_⟩
  · decide +kernel
  · decide +kernel
  · decide +kernel

/-- Both layers outside of the counter answer requests that are counted nowhere: the client of one
    received that it took too long, and the client of the other what is allowed. -/
theorem late_answer_uncounted :
    ((response? (.inl (hurried.step (.perform (.request (.ok
          (bodiless "GET" "/system/monitoring/health"))))).2)).map Response.status = some 408
      ∧ (hurried.step (.perform (.request (.ok
          (bodiless "GET" "/system/monitoring/health"))))).1.tally = [])
    ∧ (response? (.inl (hurried.step (.perform (.request (.ok
          (bodiless "OPTIONS" "/health"))))).2)).map Response.status = some 200
      ∧ (hurried.step (.perform (.request (.ok (bodiless "OPTIONS" "/health"))))).1.tally = [] := by
  decide +kernel

end Rehearsal

end Gateway
