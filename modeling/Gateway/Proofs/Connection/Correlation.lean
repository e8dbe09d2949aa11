import Mathlib.Data.List.Induction
import Mathlib.Data.List.TakeWhile
import Gateway.Proofs.Connection.Waiters

/-!
# Replies Find Their Calls

One connection serves many calls at once, and what happens on it comes in any order: calls begin to
wait, frames arrive, callers give up, and everybody who waits is failed. A call should notice
nothing of this but its own share. This module states what that share is and proves that every run
of a connection hands each call exactly that.

The share is read off the history alone. `verdict` looks at the events after a call began to wait,
takes the first that ends its wait, and says what the call is told; no connection occurs in it.
The connection side goes through `react`, the view of one call: what is held for it and what it is
told change as if the connection had no other calls (`held_apply`, `told_apply`). With that, the
invariant of a run is a statement about one call, and it relates what is held for it to the whole
history since it began (`standing`): nothing if its wait was ended, and else the latest response
that came with a reply that was not final.

The ids of calls are drawn fresh, so no id begins to wait twice. This is the only thing that is
asked of a run. In particular a reply may come before its call, twice, or after its call ended, and
a caller may give up long after having been told.

## Main definitions

* `Event`: What happens on a connection, as far as calls notice.
* `Event.apply`, `run`: What a connection makes of one event and of a history.
* `Event.ends`, `Event.concerns`: The events that end the wait of a call, or have to do with it.
* `verdict`: What a call is told, read off the events since it began to wait.
* `Waiting`, `Stray`: Calls that wait after a history, and frames that are for none of them.
* `react`: The view that one call has of an event.

## Theorems

* `held_apply`, `told_apply`: A call sees of an event what `react` says.
* `run_of_waiting`: What is held for a call that began to wait, and what it is told.
* `verdict_filter`: Only the events that concern a call have a part in its verdict.
* `held_run_of_not_waiting`: Nothing is held for a call that does not wait.
* `run_correlates`: Every run hands each call what its own events decide.
* `receive_run`: Octets that come in are a history of frames, with a sweep if one is refused.
-/

namespace Gateway

namespace Connection

/-- What happens on a connection, as far as calls notice. -/
inductive Event where
  /-- A call begins to wait under an id. -/
  | call (id : String)
  /-- A frame with the given body arrives. -/
  | frame (body : Json)
  /-- The caller under an id gives up. -/
  | cancel (id : String)
  /-- Every call that waits is failed. -/
  | sweep

namespace Event

/-- What a connection makes of an event, and what calls are told meanwhile. -/
def apply (target : Target) (c : Connection) : Event → Connection × List Settled
  | call id => (c.expect id, [])
  | frame body => c.acceptValue target body
  | cancel id => (c.forget id, [])
  | sweep => c.sweep target

/-- The reply under an id that an event brings, if it brings one. -/
def reply? (id : String) : Event → Option Reply
  | frame body => (Reply.ofValue? body).filter fun r => r.id == some id
  | _ => none

/-- Whether an event ends the wait of the call under an id: the final reply to it, its caller's
    giving up, or a sweep. -/
def ends (id : String) : Event → Bool
  | call _ => false
  | frame body => ((frame body).reply? id).any Reply.isFinal
  | cancel other => other == id
  | sweep => true

/-- Whether an event has anything to do with the call under an id. -/
def concerns (id : String) : Event → Bool
  | call other => other == id
  | frame body => ((frame body).reply? id).isSome
  | cancel other => other == id
  | sweep => true

/-- The response that comes for the call under an id with a reply that is not final. -/
def interim? (id : String) (e : Event) : Option Json :=
  (e.reply? id).bind fun r => if r.isFinal then none else r.response

end Event

/-- What a connection makes of a history, and what calls are told in its course. -/
def run (target : Target) : Connection → List Event → Connection × List Settled
  | c, [] => (c, [])
  | c, e :: es =>
    let (c, now) := e.apply target c
    let (c, later) := run target c es
    (c, now ++ later)

/-- The ids under which calls begin to wait in a history. -/
def begun (es : List Event) : List String :=
  es.filterMap fun
    | .call id => some id
    | _ => none

/-- The response of the latest reply in a history that was not final and had one. -/
def lastInterim (id : String) (es : List Event) : Option Json :=
  (es.filterMap (Event.interim? id)).getLast?

/-- What a final reply says, where `older` came before it. -/
def ruling (target : Target) (reply : Reply) (older : Option Json) : CallResult :=
  match reply.err, reply.response, older with
  | some err, _, _ => .error (.remote target (Reply.messageOf err))
  | none, some v, _ => .ok v
  | none, none, some v => .ok v
  | none, none, none => .error (.emptyResponse target)

/-- What an event that ends the wait of a call makes of it, where `older` came before it. A caller
    that gives up is told nothing. -/
def decision (target : Target) (id : String) (older : Option Json) : Event → Option CallResult
  | .sweep => some (.error (.connectionClosed target))
  | e => (e.reply? id).map fun reply => ruling target reply older

/-- What the call under an id is told, out of the events since it began to wait: the first of them
    that ends its wait decides, if there is one. -/
def verdict (target : Target) (id : String) (es : List Event) : Option CallResult :=
  (es.find? (Event.ends id)).bind
    (decision target id (lastInterim id (es.takeWhile fun e => !e.ends id)))

/-- A call waits after a history if it began to and nothing has ended its wait since. -/
def Waiting (es : List Event) (id : String) : Prop :=
  ∃ before after, es = before ++ .call id :: after ∧ ∀ e ∈ after, e.ends id = false

/-- After a history, a frame is for nobody: it is no reply, or a reply without id, or its call never
    began to wait, or does not wait any more. -/
def Stray (es : List Event) (body : Json) : Prop :=
  ∀ reply id, Reply.ofValue? body = some reply → reply.id = some id → ¬ Waiting es id

/-! ## What One Call Sees -/

/-- What an event does to one call, given what is held for it: what is held afterwards, and what
    the call is told. -/
def react (target : Target) (id : String) (held : Option (Option Json)) :
    Event → Option (Option Json) × List CallResult
  | .call other => (if other = id then some none else held, [])
  | .cancel other => (if other = id then none else held, [])
  | .sweep => (none, if held.isSome then [.error (.connectionClosed target)] else [])
  | .frame body =>
    match (Event.frame body).reply? id, held with
    | some reply, some last =>
      if reply.isFinal then (none, [conclude target reply last])
      else (some (reply.response.or last), [])
    | _, held => (held, [])

theorem reply?_of_ofValue?_none (id : String) (body : Json) (h : Reply.ofValue? body = none) :
    (Event.frame body).reply? id = none := by
  rw [Event.reply?, h]
  rfl

theorem reply?_of_id (id : String) (body : Json) (reply : Reply)
    (h : Reply.ofValue? body = some reply) (hid : reply.id = some id) :
    (Event.frame body).reply? id = some reply := by
  rw [Event.reply?, h, Option.filter_some, if_pos (beq_iff_eq.mpr hid)]

theorem reply?_of_id_ne (id : String) (body : Json) (reply : Reply)
    (h : Reply.ofValue? body = some reply) (hid : reply.id ≠ some id) :
    (Event.frame body).reply? id = none := by
  rw [Event.reply?, h, Option.filter_some, if_neg fun hc => hid (beq_iff_eq.mp hc)]

/-- A reply under another id changes nothing for a call. -/
theorem accept_of_id_ne (target : Target) (c : Connection) (reply : Reply) (id : String)
    (hid : reply.id ≠ some id) :
    (c.accept target reply).1.held id = c.held id ∧ told id (c.accept target reply).2 = [] := by
  cases hother : reply.id with
  | none =>
      rw [accept_of_anonymous target c reply hother]
      exact ⟨rfl, rfl⟩
  | some other =>
      have hne : other ≠ id := fun hc => hid (hother.trans (congrArg some hc))
      cases hheld : c.held other with
      | none =>
          rw [accept_of_unheld target c reply other hother hheld]
          exact ⟨rfl, rfl⟩
      | some last =>
          cases hfinal : reply.isFinal with
          | false =>
              rw [accept_of_partial target c reply other hother hfinal]
              exact ⟨held_remember_ne c other id _ hne, rfl⟩
          | true =>
              rw [accept_of_final target c reply other last hother hfinal hheld]
              exact ⟨held_forget_ne c other id hne, told_singleton_ne id other _ hne⟩

theorem acceptValue_react (target : Target) (c : Connection) (body : Json) (id : String) :
    (c.acceptValue target body).1.held id = (react target id (c.held id) (.frame body)).1
      ∧ told id (c.acceptValue target body).2 = (react target id (c.held id) (.frame body)).2 := by
  cases hvalue : Reply.ofValue? body with
  | none =>
      simp only [acceptValue, hvalue, react, reply?_of_ofValue?_none id body hvalue, told_nil,
        and_self]
  | some reply =>
      by_cases hid : reply.id = some id
      · -- The reply is for the call: it may wait for it or not, and the reply may be final or not.
        have hreply := reply?_of_id id body reply hvalue hid
        cases hheld : c.held id with
        | none =>
            simp only [acceptValue, hvalue, react, hreply,
              accept_of_unheld target c reply id hid hheld, hheld, told_nil, and_self]
        | some last =>
            cases hfinal : reply.isFinal with
            | false =>
                simp only [acceptValue, hvalue, react, hreply, hfinal, Bool.false_eq_true, if_false,
                  accept_of_partial target c reply id hid hfinal, held_remember_self, hheld,
                  Option.map_some, told_nil, and_self]
            | true =>
                simp only [acceptValue, hvalue, react, hreply, hfinal, if_true,
                  accept_of_final target c reply id last hid hfinal hheld, held_forget_self,
                  told_singleton_self, and_self]
      · simp only [acceptValue, hvalue, react, reply?_of_id_ne id body reply hvalue hid]
        exact accept_of_id_ne target c reply id hid

/-- What is held for a call changes as if the connection had no other calls. -/
theorem held_apply (target : Target) (c : Connection) (id : String) (e : Event) :
    (e.apply target c).1.held id = (react target id (c.held id) e).1 := by
  cases e with
  | call other =>
      by_cases h : other = id
      · rw [h]
        simp only [Event.apply, react, held_expect_self, if_true]
      · simp only [Event.apply, react, held_expect_ne c other id h, if_neg h]
  | frame body => exact (acceptValue_react target c body id).1
  | cancel other =>
      by_cases h : other = id
      · rw [h]
        simp only [Event.apply, react, held_forget_self, if_true]
      · simp only [Event.apply, react, held_forget_ne c other id h, if_neg h]
  | sweep => exact held_sweep target c id

/-- What a call is told depends on what is held for it and on nothing else. -/
theorem told_apply (target : Target) (c : Connection) (id : String) (e : Event) :
    told id (e.apply target c).2 = (react target id (c.held id) e).2 := by
  cases e with
  | call other => rfl
  | frame body => exact (acceptValue_react target c body id).2
  | cancel other => rfl
  | sweep => exact told_sweep target c id

/-! ## Histories -/

theorem run_append (target : Target) (es fs : List Event) (c : Connection) :
    run target c (es ++ fs)
      = ((run target (run target c es).1 fs).1,
        (run target c es).2 ++ (run target (run target c es).1 fs).2) := by
  induction es generalizing c with
  | nil => rfl
  | cons e es ih => simp only [List.cons_append, run, ih, List.append_assoc]

theorem held_run_snoc (target : Target) (c : Connection) (id : String) (es : List Event)
    (e : Event) :
    (run target c (es ++ [e])).1.held id
      = (react target id ((run target c es).1.held id) e).1 := by
  rw [run_append]
  exact held_apply target (run target c es).1 id e

theorem told_run_snoc (target : Target) (c : Connection) (id : String) (es : List Event)
    (e : Event) :
    told id (run target c (es ++ [e])).2
      = told id (run target c es).2 ++ (react target id ((run target c es).1.held id) e).2 := by
  rw [run_append, told_append, ← told_apply]
  simp only [run, List.append_nil]

/-- A call that does not wait notices nothing until it begins to. -/
theorem react_none (target : Target) (id : String) (e : Event) (h : e ≠ .call id) :
    react target id none e = (none, []) := by
  cases e with
  | call other =>
      have hne : ¬ other = id := fun hc => h (congrArg Event.call hc)
      simp only [react, if_neg hne]
  | frame body =>
      simp only [react]
      cases (Event.frame body).reply? id <;> rfl
  | cancel other => simp only [react, ite_self]
  | sweep => rfl

/-- No event of a history begins a call that its last event and those before it do not begin. -/
theorem begun_snoc (id : String) (es : List Event) (e : Event) (h : id ∉ begun (es ++ [e])) :
    id ∉ begun es ∧ e ≠ .call id := by
  rw [begun, List.filterMap_append] at h
  refine ⟨fun hc => h (List.mem_append_left _ hc), fun hc => h ?_⟩
  rw [hc]
  exact List.mem_append_right _ (List.mem_singleton_self id)

theorem run_of_unheld (target : Target) (c : Connection) (id : String) (es : List Event)
    (hheld : c.held id = none) (hes : id ∉ begun es) :
    (run target c es).1.held id = none ∧ told id (run target c es).2 = [] := by
  induction es using List.reverseRecOn with
  | nil => exact ⟨hheld, rfl⟩
  | append_singleton es e ih =>
      rcases begun_snoc id es e hes with ⟨hbegun, hcall⟩
      rcases ih hbegun with ⟨hrest, hquiet⟩
      rw [held_run_snoc, told_run_snoc, hrest, hquiet, react_none target id e hcall]
      exact ⟨rfl, rfl⟩

theorem conclude_eq_ruling (target : Target) (reply : Reply) (older : Option Json) :
    conclude target reply older = ruling target reply older := by
  rcases reply with ⟨_, response, err, _⟩
  cases err with
  | some err => rfl
  | none =>
      cases response with
      | some v => rfl
      | none => cases older <;> rfl

/-- What is held for a call that began to wait, after the events since then. -/
def standing (id : String) (es : List Event) : Option (Option Json) :=
  if es.any (Event.ends id) then none else some (lastInterim id es)

theorem lastInterim_snoc (id : String) (es : List Event) (e : Event) :
    lastInterim id (es ++ [e]) = (e.interim? id).or (lastInterim id es) := by
  rw [lastInterim, List.filterMap_append, List.getLast?_append, lastInterim]
  cases h : e.interim? id with
  | none => simp only [List.filterMap_cons_none h, List.filterMap_nil, List.getLast?_nil]
  | some v => simp only [List.filterMap_cons_some h, List.filterMap_nil, List.getLast?_singleton]

theorem standing_of_open (id : String) (es : List Event) (h : ∀ e ∈ es, e.ends id = false) :
    standing id es = some (lastInterim id es) := by
  rw [standing, if_neg]
  simp only [List.any_eq_true, not_exists, not_and, Bool.not_eq_true]
  exact h

theorem standing_of_ended (id : String) (es : List Event) (e : Event) (hmem : e ∈ es)
    (hends : e.ends id = true) : standing id es = none := by
  rw [standing, if_pos (List.any_eq_true.mpr ⟨e, hmem, hends⟩)]

/-- The first event that ends the wait settles the verdict, whatever comes later. -/
theorem verdict_append_of_ended (target : Target) (id : String) (es fs : List Event) (e : Event)
    (hmem : e ∈ es) (hends : e.ends id = true) :
    verdict target id (es ++ fs) = verdict target id es := by
  have hsome : (es.find? (Event.ends id)).isSome = true := List.find?_isSome.mpr ⟨e, hmem, hends⟩
  have htake : (es ++ fs).takeWhile (fun e => !e.ends id) = es.takeWhile fun e => !e.ends id := by
    rw [List.takeWhile_append, if_neg]
    -- The earlier events are not taken as a whole, for one among them ends the wait.
    intro hlen
    have hall := List.takeWhile_eq_self_iff.mp
      ((List.takeWhile_prefix fun e => !Event.ends id e).eq_of_length hlen)
    have hopen := hall e hmem
    rw [hends] at hopen
    exact Bool.false_ne_true hopen
  rw [verdict, verdict, List.find?_append, Option.or_of_isSome hsome, htake]

theorem find?_ends_eq_none (id : String) (es : List Event) (h : ∀ e ∈ es, e.ends id = false) :
    es.find? (Event.ends id) = none :=
  List.find?_eq_none.mpr fun e he => Bool.eq_false_iff.mp (h e he)

theorem verdict_of_open (target : Target) (id : String) (es : List Event)
    (h : ∀ e ∈ es, e.ends id = false) : verdict target id es = none := by
  rw [verdict, find?_ends_eq_none id es h]
  rfl

theorem verdict_snoc_of_ends (target : Target) (id : String) (es : List Event) (e : Event)
    (hopen : ∀ e ∈ es, e.ends id = false) (hends : e.ends id = true) :
    verdict target id (es ++ [e]) = decision target id (lastInterim id es) e := by
  have htake : (es ++ [e]).takeWhile (fun e => !e.ends id) = es := by
    rw [List.takeWhile_append_of_pos fun f hf => by rw [hopen f hf]; rfl]
    simp only [List.takeWhile, hends, Bool.not_true, List.append_nil]
  rw [verdict, List.find?_append, find?_ends_eq_none id es hopen, Option.none_or, htake]
  simp only [List.find?, hends, Option.bind_some]

/-- While nothing ended the wait, an event that does not end it either is remembered, and one that
    does is what the call is told of. -/
theorem react_some (target : Target) (id : String) (last : Option Json) (e : Event)
    (hcall : e ≠ .call id) :
    react target id (some last) e
      = if e.ends id then (none, (decision target id last e).toList)
        else (some ((e.interim? id).or last), []) := by
  cases e with
  | call other =>
      have hne : ¬ other = id := fun hc => hcall (congrArg Event.call hc)
      simp only [react, if_neg hne, Event.ends, Bool.false_eq_true, if_false, Event.interim?,
        Event.reply?, Option.bind_none, Option.none_or]
  | frame body =>
      cases hreply : (Event.frame body).reply? id with
      | none =>
          simp only [react, hreply, Event.ends, Event.interim?, Option.any_none, Bool.false_eq_true,
            if_false, Option.bind_none, Option.none_or]
      | some reply =>
          cases hfinal : reply.isFinal with
          | false =>
              simp only [react, hreply, Event.ends, Event.interim?, Option.any_some, hfinal,
                Bool.false_eq_true, if_false, Option.bind_some]
          | true =>
              simp only [react, hreply, Event.ends, Option.any_some, hfinal, if_true, decision,
                Option.map_some, Option.toList_some, conclude_eq_ruling]
  | cancel other =>
      by_cases h : other = id
      · simp only [react, h, if_true, Event.ends, beq_self_eq_true, decision, Event.reply?,
          Option.map_none, Option.toList_none]
      · simp only [react, if_neg h, Event.ends, beq_eq_false_iff_ne.mpr h, Bool.false_eq_true,
          if_false, Event.interim?, Event.reply?, Option.bind_none, Option.none_or]
  | sweep =>
      simp only [react, Event.ends, Option.isSome_some, if_true, decision, Option.toList_some]

/-- The invariant of a run, for one call: what is held for it and what it was told, in terms of the
    history since it began to wait. -/
theorem run_of_waiting (target : Target) (c : Connection) (id : String) (es : List Event)
    (hheld : c.held id = some none) (hes : id ∉ begun es) :
    (run target c es).1.held id = standing id es
      ∧ told id (run target c es).2 = (verdict target id es).toList := by
  induction es using List.reverseRecOn with
  | nil => exact ⟨hheld, rfl⟩
  | append_singleton es e ih =>
      rcases begun_snoc id es e hes with ⟨hbegun, hcall⟩
      rcases ih hbegun with ⟨hstands, htold⟩
      rw [held_run_snoc, told_run_snoc, hstands, htold]
      by_cases hended : ∃ f ∈ es, f.ends id = true
      · -- The call was told already, and an event after that finds nobody waiting.
        rcases hended with ⟨f, hmem, hends⟩
        rw [standing_of_ended id es f hmem hends, react_none target id e hcall,
          verdict_append_of_ended target id es [e] f hmem hends,
          standing_of_ended id (es ++ [e]) f (List.mem_append_left _ hmem) hends]
        exact ⟨rfl, List.append_nil _⟩
      · -- The call still waits, and the event either settles it or is remembered at most.
        have hopen : ∀ f ∈ es, f.ends id = false := fun f hf =>
          Bool.eq_false_iff.mpr fun hc => hended ⟨f, hf, hc⟩
        rw [standing_of_open id es hopen, react_some target id _ e hcall,
          verdict_of_open target id es hopen]
        cases hends : e.ends id with
        | true =>
            have hlast : e ∈ es ++ [e] := List.mem_append_right _ (List.mem_singleton_self e)
            rw [verdict_snoc_of_ends target id es e hopen hends,
              standing_of_ended id (es ++ [e]) e hlast hends]
            exact ⟨rfl, rfl⟩
        | false =>
            have hopen' : ∀ f ∈ es ++ [e], f.ends id = false := by
              intro f hf
              rcases List.mem_append.mp hf with hf | hf
              · exact hopen f hf
              · rw [List.mem_singleton.mp hf]
                exact hends
            rw [standing_of_open id _ hopen', verdict_of_open target id _ hopen', lastInterim_snoc]
            exact ⟨rfl, rfl⟩

/-! ## Other Calls' Events -/

theorem concerns_of_ends (id : String) (e : Event) (h : e.ends id = true) :
    e.concerns id = true := by
  cases e with
  | call other => exact absurd h Bool.false_ne_true
  | frame body =>
      cases hreply : (Event.frame body).reply? id with
      | none =>
          rw [Event.ends, hreply] at h
          exact absurd h Bool.false_ne_true
      | some reply => rw [Event.concerns, hreply, Option.isSome_some]
  | cancel other => exact h
  | sweep => rfl

theorem interim?_of_concerns (id : String) (e : Event) :
    (if e.concerns id = true then e.interim? id else none) = e.interim? id := by
  cases h : e.concerns id with
  | true => exact if_pos rfl
  | false =>
      rw [if_neg Bool.false_ne_true]
      cases e with
      | frame body =>
          rw [Event.interim?, Option.not_isSome_iff_eq_none.mp (Bool.eq_false_iff.mp h)]
          rfl
      | _ => rfl

theorem lastInterim_filter (id : String) (es : List Event) :
    lastInterim id (es.filter (Event.concerns id)) = lastInterim id es := by
  rw [lastInterim, List.filterMap_filter, lastInterim]
  simp only [interim?_of_concerns]

theorem takeWhile_filter (id : String) (es : List Event) :
    (es.filter (Event.concerns id)).takeWhile (fun e => !e.ends id)
      = (es.takeWhile fun e => !e.ends id).filter (Event.concerns id) := by
  induction es with
  | nil => rfl
  | cons e es ih =>
      cases hends : e.ends id with
      | true =>
          simp only [List.filter_cons, concerns_of_ends id e hends, if_true, List.takeWhile_cons,
            hends, Bool.not_true, Bool.false_eq_true, if_false, List.filter_nil]
      | false =>
          cases hconcerns : e.concerns id with
          | true =>
              simp only [List.filter_cons, hconcerns, if_true, List.takeWhile_cons, hends,
                Bool.not_false, ih]
          | false =>
              simp only [List.filter_cons, hconcerns, Bool.false_eq_true, if_false,
                List.takeWhile_cons, hends, Bool.not_false, if_true, ih]

/-- Only the events that concern a call have a part in what it is told. -/
theorem verdict_filter (target : Target) (id : String) (es : List Event) :
    verdict target id (es.filter (Event.concerns id)) = verdict target id es := by
  have hfind : (es.filter (Event.concerns id)).find? (Event.ends id)
      = es.find? (Event.ends id) := by
    rw [List.find?_filter]
    congr 1
    funext e
    cases hends : e.ends id with
    | true => rw [concerns_of_ends id e hends]; rfl
    | false => simp only [Bool.false_eq_true, and_false, decide_false]
  rw [verdict, hfind, takeWhile_filter, lastInterim_filter, verdict]

/-! ## Whole Runs -/

theorem not_mem_begun_of_nodup (id : String) (before after : List Event)
    (h : (begun (before ++ .call id :: after)).Nodup) : id ∉ begun before ∧ id ∉ begun after := by
  have hsplit : begun (before ++ .call id :: after) = begun before ++ id :: begun after := by
    rw [begun, List.filterMap_append]
    rfl
  rw [hsplit] at h
  rcases List.nodup_append.mp h with ⟨_, htail, hdisjoint⟩
  exact ⟨fun hc => hdisjoint id hc id List.mem_cons_self rfl, (List.nodup_cons.mp htail).1⟩

theorem exists_of_mem_begun (id : String) (es : List Event) (h : id ∈ begun es) :
    ∃ before after, es = before ++ .call id :: after := by
  rcases List.mem_filterMap.mp h with ⟨e, hmem, he⟩
  cases e with
  | call other =>
      rw [← Option.some.inj he]
      exact List.append_of_mem hmem
  | frame body => exact absurd he (Option.some_ne_none id).symm
  | cancel other => exact absurd he (Option.some_ne_none id).symm
  | sweep => exact absurd he (Option.some_ne_none id).symm

theorem run_of_begun (target : Target) (id : String) (before after : List Event)
    (h : (begun (before ++ .call id :: after)).Nodup) :
    (run target fresh (before ++ .call id :: after)).1.held id = standing id after
      ∧ told id (run target fresh (before ++ .call id :: after)).2
        = (verdict target id after).toList := by
  rcases not_mem_begun_of_nodup id before after h with ⟨hbefore, hafter⟩
  rcases run_of_unheld target fresh id before rfl hbefore with ⟨_, hquiet⟩
  have hrun : run target fresh (before ++ .call id :: after)
      = ((run target ((run target fresh before).1.expect id) after).1,
        (run target fresh before).2
          ++ (run target ((run target fresh before).1.expect id) after).2) := by
    rw [run_append]
    rfl
  rcases run_of_waiting target ((run target fresh before).1.expect id) id after
    (held_expect_self _ id) hafter with ⟨hheld, htold⟩
  rw [hrun]
  exact ⟨hheld, by rw [told_append, hquiet, htold, List.nil_append]⟩

/-- Nothing is held for a call that does not wait. -/
theorem held_run_of_not_waiting (target : Target) (es : List Event) (id : String)
    (h : (begun es).Nodup) (hwait : ¬ Waiting es id) : (run target fresh es).1.held id = none := by
  by_cases hbegun : id ∈ begun es
  · rcases exists_of_mem_begun id es hbegun with ⟨before, after, rfl⟩
    rw [(run_of_begun target id before after h).1, standing, if_pos]
    -- A call that began to wait and was not ended would be waiting.
    by_contra hopen
    simp only [List.any_eq_true, not_exists, not_and, Bool.not_eq_true] at hopen
    exact hwait ⟨before, after, rfl, hopen⟩
  · exact (run_of_unheld target fresh id es rfl hbegun).1

/-- Every run hands each call what the events that concern it decide, once at most, and frames that
    are for nobody leave the connection as it is and tell nobody anything. -/
theorem run_correlates (target : Target) (es : List Event) (h : (begun es).Nodup) :
    (∀ before id after, es = before ++ .call id :: after →
      told id (run target fresh es).2 = (verdict target id after).toList
        ∧ verdict target id (after.filter (Event.concerns id)) = verdict target id after)
      ∧ (∀ id, (told id (run target fresh es).2).length ≤ 1)
      ∧ ∀ body, Stray es body →
        (run target fresh es).1.acceptValue target body = ((run target fresh es).1, []) := by
  refine ⟨?_, ?_, ?_⟩
  · rintro before id after rfl
    exact ⟨(run_of_begun target id before after h).2, verdict_filter target id after⟩
  · intro id
    by_cases hbegun : id ∈ begun es
    · rcases exists_of_mem_begun id es hbegun with ⟨before, after, rfl⟩
      rw [(run_of_begun target id before after h).2]
      cases verdict target id after with
      | none => exact Nat.zero_le 1
      | some r => exact Nat.le_refl 1
    · rw [(run_of_unheld target fresh id es rfl hbegun).2]
      exact Nat.zero_le 1
  · intro body hstray
    rw [acceptValue]
    -- No reply, a reply without id, or a reply to a call for which nothing is held.
    cases hvalue : Reply.ofValue? body with
    | none => rfl
    | some reply =>
        cases hid : reply.id with
        | none => exact accept_of_anonymous target _ reply hid
        | some id =>
            exact accept_of_unheld target _ reply id hid
              (held_run_of_not_waiting target es id h (hstray reply id hvalue hid))

/-- A history of two calls: the first gets a response ahead of its final reply, which has none, and
    the second is swept before its reply comes. -/
def twoCalls : List Event :=
  [.call "a", .frame (.object [("id", .string "b"), ("isDisposed", .bool true)]), .call "b",
    .frame (.object [("id", .string "a"), ("response", .null)]),
    .frame (.object [("id", .string "a"), ("isDisposed", .bool true)]), .cancel "a", .sweep,
    .frame (.object [("err", .string "late"), ("id", .string "b")])]

theorem run_correlates_two_calls : (begun twoCalls).Nodup
    ∧ told "a" (run .notification fresh twoCalls).2 = [.ok .null]
    ∧ told "b" (run .notification fresh twoCalls).2
      = [.error (.connectionClosed .notification)] := by
  have hfresh : (begun twoCalls).Nodup := by decide
  rcases run_correlates .notification twoCalls hfresh with ⟨htold, _, _⟩
  refine ⟨hfresh, ?_, ?_⟩
  · exact (htold [] "a" _ rfl).1.trans rfl
  · exact (htold (twoCalls.take 2) "b" (twoCalls.drop 3) rfl).1.trans rfl

/-! ## Octets -/

/-- What decoding found, as a history: the frames, and a sweep if something was refused. A decoder
    that breaks down takes the reader along, and nothing is swept. -/
def arrivals (found : Frame.Drained) : List Event :=
  found.frames.map .frame ++ if found.error.any (!·.isBreakdown) then [.sweep] else []

theorem run_congr (target : Target) (id : String) (es : List Event) (c d : Connection)
    (h : c.held id = d.held id) :
    (run target c es).1.held id = (run target d es).1.held id
      ∧ told id (run target c es).2 = told id (run target d es).2 := by
  induction es using List.reverseRecOn with
  | nil => exact ⟨h, rfl⟩
  | append_singleton es e ih =>
      rw [held_run_snoc, held_run_snoc, told_run_snoc, told_run_snoc, ih.1, ih.2]
      exact ⟨rfl, rfl⟩

theorem acceptAll_eq_run (target : Target) (bodies : List Json) (c : Connection) :
    c.acceptAll target bodies = run target c (bodies.map .frame) := by
  induction bodies generalizing c with
  | nil => rfl
  | cons body bodies ih => simp only [acceptAll, List.map_cons, run, Event.apply, ih]

theorem stop_of_breakdown (target : Target) (c : Connection) {e : FrameError}
    (h : e.isBreakdown = true) : c.stop target e = (c.halt, []) := by
  rw [stop, if_pos h]

theorem stop_of_answer (target : Target) (c : Connection) {e : FrameError}
    (h : e.isBreakdown = false) : c.stop target e = c.finish target := by
  rw [stop, h]
  exact if_neg Bool.false_ne_true

/-- Octets that come in while the reader reads are a history of frames, ended by a sweep if one of
    them cannot be decoded. -/
theorem receive_run (target : Target) (limit : Nat) (c : Connection) (octets : Bytes) (id : String)
    (hread : c.isRead = true) :
    (c.receive target limit octets).1.held id
        = (run target c (arrivals (Frame.feed limit c.inbox octets))).1.held id
      ∧ told id (c.receive target limit octets).2
        = told id (run target c (arrivals (Frame.feed limit c.inbox octets))).2 := by
  rcases hfound : Frame.feed limit c.inbox octets with ⟨frames, error, rest⟩
  have hguard : (!c.isRead) = false := by
    rw [hread]
    rfl
  have hframes := run_congr target id (frames.map .frame) { c with inbox := rest } c rfl
  cases error with
  | none =>
      simp only [receive, hguard, Bool.false_eq_true, if_false, hfound,
        acceptAll_eq_run, arrivals, Option.any_none, List.append_nil]
      exact hframes
  | some e =>
      cases hbreak : e.isBreakdown with
      | true =>
          simp only [receive, hguard, Bool.false_eq_true, if_false, hfound, acceptAll_eq_run,
            arrivals, Option.any_some, hbreak, Bool.not_true, List.append_nil,
            stop_of_breakdown target _ hbreak]
          exact hframes
      | false =>
          simp only [receive, hguard, Bool.false_eq_true, if_false, hfound, acceptAll_eq_run,
            arrivals, Option.any_some, hbreak, Bool.not_false, if_true, held_run_snoc,
            told_run_snoc, told_append, hframes.2, stop_of_answer target _ hbreak]
          -- Marking the connection first makes no difference to what is held for a call.
          rw [finish, held_sweep, told_sweep, ← hframes.1]
          exact ⟨rfl, rfl⟩

end Connection

end Gateway
