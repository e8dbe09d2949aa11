import Gateway.Connection

/-!
# Waiters One at a Time

A connection keeps the calls that wait in one list, and every operation works on the list as a
whole. What the operations promise is promised to single calls, though, and a call sees nothing of
the list but its own waiter. So each operation is described here by what it does to the waiter of
one id, whichever id that is: the waiter of another id is left alone by everything except a sweep.

`held` is that view. It does not ask for the ids in the list to be distinct. The list is searched
from the front and a waiter is taken away together with all others of its id, so a second waiter
of the same id could neither be found nor outlive the first.

`told` is the view of the other side: of all the calls that were told of their ends, what the call
under one id was told, in order.

## Main definitions

* `held`: What is remembered for the call under an id, if it waits.
* `told`: What the call under an id was told.

## Theorems

* `held_expect_self`, `held_expect_ne`: A call begins to wait with nothing remembered.
* `held_forget_self`, `held_forget_ne`: A call ceases to wait.
* `held_remember_self`, `held_remember_ne`: A response is remembered over an older one.
* `accept_of_final`, `accept_of_unheld`: A final reply settles the call that waits, if one does.
* `held_failAll`, `told_failAll`: Failing some ids one after another.
* `held_sweep`, `told_sweep`: A sweep fails exactly the calls that wait.
-/

namespace Gateway

/-- What the call under an id was told, out of all that calls were told. -/
def told (id : String) (settled : List Settled) : List CallResult :=
  (settled.filter fun s => s.id == id).map Settled.result

@[simp] theorem told_nil (id : String) : told id [] = [] := rfl

theorem told_append (id : String) (ss ts : List Settled) :
    told id (ss ++ ts) = told id ss ++ told id ts := by
  simp only [told, List.filter_append, List.map_append]

theorem told_singleton_self (id : String) (r : CallResult) : told id [⟨id, r⟩] = [r] := by
  simp only [told, List.filter, beq_self_eq_true, List.map_cons, List.map_nil]

theorem told_singleton_ne (id other : String) (r : CallResult) (h : other ≠ id) :
    told id [⟨other, r⟩] = [] := by
  simp only [told, List.filter, beq_eq_false_iff_ne.mpr h, List.map_nil]

/-- Whoever was told something is among those that calls were told. -/
theorem mem_of_mem_told (id : String) (r : CallResult) (ss : List Settled) (h : r ∈ told id ss) :
    ⟨id, r⟩ ∈ ss := by
  rcases List.mem_map.mp h with ⟨s, hs, rfl⟩
  rcases List.mem_filter.mp hs with ⟨hmem, hid⟩
  rw [← beq_iff_eq.mp hid]
  exact hmem

theorem mem_told_of_mem (call : Settled) (ss : List Settled) (h : call ∈ ss) :
    call.result ∈ told call.id ss :=
  List.mem_map_of_mem (List.mem_filter.mpr ⟨h, beq_iff_eq.mpr rfl⟩)

namespace Connection

/-- What a connection remembers for the call under an id, if that call waits. -/
def held (c : Connection) (id : String) : Option (Option Json) :=
  (c.waiters.find? fun w => w.id == id).map Waiter.last

/-- A call waits exactly if something is held for it, be it only that there was no response. -/
theorem awaits_eq_isSome_held (c : Connection) (id : String) :
    c.awaits id = (c.held id).isSome := by
  rw [awaits, held, Option.isSome_map, List.isSome_find?]

theorem held_forget_self (c : Connection) (id : String) : (c.forget id).held id = none := by
  have hnone : (c.forget id).waiters.find? (fun w => w.id == id) = none := by
    rw [forget, List.find?_filter, List.find?_eq_none]
    -- What is found would have the id and not have it.
    intro w _ hw
    rcases of_decide_eq_true hw with ⟨hne, heq⟩
    exact bne_iff_ne.mp hne (beq_iff_eq.mp heq)
  rw [held, hnone, Option.map_none]

theorem held_forget_ne (c : Connection) (id other : String) (h : id ≠ other) :
    (c.forget id).held other = c.held other := by
  have hsame : (c.forget id).waiters.find? (fun w => w.id == other)
      = c.waiters.find? fun w => w.id == other := by
    rw [forget, List.find?_filter]
    congr 1
    funext w
    -- A waiter that is looked for has another id than those that are taken away.
    by_cases hw : w.id = other
    · have hne : w.id ≠ id := fun hc => h (hc.symm.trans hw)
      simp only [bne_iff_ne.mpr hne, beq_iff_eq.mpr hw, and_self, decide_true]
    · simp only [beq_eq_false_iff_ne.mpr hw, Bool.false_eq_true, and_false, decide_false]
  rw [held, hsame, held]

theorem held_expect_self (c : Connection) (id : String) : (c.expect id).held id = some none := by
  have hnone : (c.forget id).waiters.find? (fun w => w.id == id) = none :=
    Option.map_eq_none_iff.mp (held_forget_self c id)
  rw [held, expect, List.find?_append, hnone, Option.none_or]
  simp only [List.find?, beq_self_eq_true, Option.map_some]

theorem held_expect_ne (c : Connection) (id other : String) (h : id ≠ other) :
    (c.expect id).held other = c.held other := by
  have hnew : [(⟨id, none⟩ : Waiter)].find? (fun w => w.id == other) = none := by
    simp only [List.find?, beq_eq_false_iff_ne.mpr h]
  rw [held, expect, List.find?_append, hnew, Option.or_none]
  exact held_forget_ne c id other h

/-- A call that does not wait cannot cease to. -/
theorem forget_of_unheld (c : Connection) (id : String) (h : c.held id = none) :
    c.forget id = c := by
  have hfilter : (c.waiters.filter fun w => w.id != id) = c.waiters := by
    refine List.filter_eq_self.mpr fun w hw => ?_
    rw [bne, Bool.eq_false_iff.mpr (List.find?_eq_none.mp (Option.map_eq_none_iff.mp h) w hw)]
    rfl
  rw [forget, hfilter]

/-- The waiters are found at the same places after remembering, the ids being the same. -/
theorem held_remember (c : Connection) (id other : String) (response : Option Json) :
    (c.remember id response).held other
      = if id = other then (c.held other).map response.or else c.held other := by
  have hid : ((fun w : Waiter => w.id == other)
      ∘ fun w => if w.id == id then { w with last := response.or w.last } else w)
      = fun w => w.id == other := by
    funext w
    by_cases hw : w.id == id
    · simp only [Function.comp_apply, if_pos hw]
    · simp only [Function.comp_apply, if_neg hw]
  rw [held, remember, List.find?_map, hid, held]
  -- What is found is the same waiter, and only its own response may have changed.
  cases hfind : c.waiters.find? fun w => w.id == other with
  | none => simp only [Option.map_none, ite_self]
  | some w =>
      have hw : w.id = other := by
        have hfound := List.find?_some hfind
        exact beq_iff_eq.mp hfound
      by_cases h : id = other
      · rw [if_pos h]
        simp only [Option.map_some, hw, h, beq_self_eq_true, if_true]
      · have hne : (w.id == id) = false := beq_eq_false_iff_ne.mpr fun hc => h (hc.symm.trans hw)
        rw [if_neg h]
        simp only [Option.map_some, hne, Bool.false_eq_true, if_false]

theorem held_remember_self (c : Connection) (id : String) (response : Option Json) :
    (c.remember id response).held id = (c.held id).map response.or := by
  rw [held_remember, if_pos rfl]

theorem held_remember_ne (c : Connection) (id other : String) (response : Option Json)
    (h : id ≠ other) : (c.remember id response).held other = c.held other := by
  rw [held_remember, if_neg h]

/-- Nothing is remembered for a call that does not wait. -/
theorem remember_of_unheld (c : Connection) (id : String) (response : Option Json)
    (h : c.held id = none) : c.remember id response = c := by
  have hids : ∀ w ∈ c.waiters, (w.id == id) = false := fun w hw =>
    Bool.eq_false_iff.mpr (List.find?_eq_none.mp (Option.map_eq_none_iff.mp h) w hw)
  have hmap : (c.waiters.map fun w =>
      if w.id == id then { w with last := response.or w.last } else w) = c.waiters := by
    refine (List.map_congr_left fun w hw => ?_).trans (List.map_id _)
    rw [hids w hw]
    rfl
  rw [remember, hmap]

/-! ## Replies -/

theorem accept_of_anonymous (target : Target) (c : Connection) (reply : Reply)
    (hid : reply.id = none) : c.accept target reply = (c, []) := by
  rw [accept, hid]

theorem accept_of_partial (target : Target) (c : Connection) (reply : Reply) (id : String)
    (hid : reply.id = some id) (hfinal : reply.isFinal = false) :
    c.accept target reply = (c.remember id reply.response, []) := by
  rw [accept, hid]
  simp only [hfinal, Bool.not_false, if_true]

theorem accept_of_final (target : Target) (c : Connection) (reply : Reply) (id : String)
    (last : Option Json) (hid : reply.id = some id) (hfinal : reply.isFinal = true)
    (hheld : c.held id = some last) :
    c.accept target reply = (c.forget id, [⟨id, conclude target reply last⟩]) := by
  rcases Option.map_eq_some_iff.mp hheld with ⟨w, hw, rfl⟩
  rw [accept, hid]
  simp only [hfinal, Bool.not_true, Bool.false_eq_true, if_false, hw]

/-- A reply under an id that nobody waits for does nothing, whatever it says. -/
theorem accept_of_unheld (target : Target) (c : Connection) (reply : Reply) (id : String)
    (hid : reply.id = some id) (hheld : c.held id = none) :
    c.accept target reply = (c, []) := by
  cases hfinal : reply.isFinal with
  | false => rw [accept_of_partial target c reply id hid hfinal, remember_of_unheld c id _ hheld]
  | true =>
      have hfind := Option.map_eq_none_iff.mp hheld
      rw [accept, hid]
      simp only [hfinal, Bool.not_true, Bool.false_eq_true, if_false, hfind]

/-! ## Failing -/

theorem fail_of_held (target : Target) (c : Connection) (id : String) (last : Option Json)
    (h : c.held id = some last) :
    c.fail target id = (c.forget id, [⟨id, .error (.connectionClosed target)⟩]) := by
  rw [fail, awaits_eq_isSome_held, h, Option.isSome_some, if_pos rfl]

theorem fail_of_unheld (target : Target) (c : Connection) (id : String)
    (h : c.held id = none) : c.fail target id = (c, []) := by
  rw [fail, awaits_eq_isSome_held, h, Option.isSome_none]
  rfl

theorem held_fail_self (target : Target) (c : Connection) (id : String) :
    (c.fail target id).1.held id = none := by
  cases h : c.held id with
  | none => rw [fail_of_unheld target c id h, h]
  | some last => rw [fail_of_held target c id last h, held_forget_self]

theorem held_fail_ne (target : Target) (c : Connection) (id other : String) (hne : id ≠ other) :
    (c.fail target id).1.held other = c.held other := by
  cases h : c.held id with
  | none => rw [fail_of_unheld target c id h]
  | some last => rw [fail_of_held target c id last h, held_forget_ne c id other hne]

theorem told_fail_self (target : Target) (c : Connection) (id : String) :
    told id (c.fail target id).2
      = if (c.held id).isSome then [.error (.connectionClosed target)] else [] := by
  cases h : c.held id with
  | none => rw [fail_of_unheld target c id h]; rfl
  | some last => rw [fail_of_held target c id last h, told_singleton_self]; rfl

theorem told_fail_ne (target : Target) (c : Connection) (id other : String) (hne : id ≠ other) :
    told other (c.fail target id).2 = [] := by
  cases h : c.held id with
  | none => rw [fail_of_unheld target c id h]; rfl
  | some last => rw [fail_of_held target c id last h, told_singleton_ne other id _ hne]

/-- Whoever is failed by a list of ids does not wait afterwards, and all others are as before. -/
theorem held_failAll (target : Target) (id : String) (ids : List String) (c : Connection) :
    (c.failAll target ids).1.held id = if id ∈ ids then none else c.held id := by
  induction ids generalizing c with
  | nil => rw [failAll, if_neg (List.not_mem_nil)]
  | cons other rest ih =>
      simp only [failAll, ih, List.mem_cons]
      -- Failed by the rest of the list, failed first, or not at all.
      by_cases hrest : id ∈ rest
      · rw [if_pos hrest, if_pos (Or.inr hrest)]
      · rw [if_neg hrest]
        by_cases hid : other = id
        · rw [if_pos (Or.inl hid.symm), hid, held_fail_self]
        · rw [if_neg (by simp only [hrest, or_false]; exact fun hc => hid hc.symm),
            held_fail_ne target c other id hid]

/-- A call is failed once, at the first mention of its id, and not at all if it did not wait. -/
theorem told_failAll (target : Target) (id : String) (ids : List String) (c : Connection) :
    told id (c.failAll target ids).2
      = if id ∈ ids ∧ (c.held id).isSome then [.error (.connectionClosed target)] else [] := by
  induction ids generalizing c with
  | nil => simp only [failAll, told_nil, List.not_mem_nil, false_and, if_false]
  | cons other rest ih =>
      simp only [failAll, told_append, ih, List.mem_cons]
      by_cases hid : other = id
      · -- The first mention settles the matter, so the rest finds nobody waiting.
        subst hid
        rw [held_fail_self, told_fail_self]
        simp only [Option.isSome_none, Bool.false_eq_true, and_false, if_false, List.append_nil,
          true_or, true_and]
      · have hne : ¬ id = other := fun hc => hid hc.symm
        rw [told_fail_ne target c other id hid, held_fail_ne target c other id hid, List.nil_append]
        simp only [hne, false_or]

/-- Every call that waits is among the ids, and no other is. -/
theorem mem_ids_iff (c : Connection) (id : String) : id ∈ c.ids ↔ (c.held id).isSome = true := by
  rw [← awaits_eq_isSome_held, awaits, List.any_eq_true, ids, List.mem_map]
  exact exists_congr fun w => and_congr_right fun _ => beq_iff_eq.symm

theorem held_sweep (target : Target) (c : Connection) (id : String) :
    (c.sweep target).1.held id = none := by
  rw [sweep, held_failAll]
  by_cases h : id ∈ c.ids
  · rw [if_pos h]
  · -- Who is not on the list did not wait in the first place.
    rw [if_neg h]
    exact Option.not_isSome_iff_eq_none.mp fun hsome => h ((mem_ids_iff c id).mpr hsome)

theorem told_sweep (target : Target) (c : Connection) (id : String) :
    told id (c.sweep target).2
      = if (c.held id).isSome then [.error (.connectionClosed target)] else [] := by
  simp only [sweep, told_failAll, mem_ids_iff, and_self]

end Connection

end Gateway
