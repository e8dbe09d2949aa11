import Mathlib.Data.List.Induction
import Mathlib.Data.List.Nodup
import Gateway.Switchboard

/-!
# What Is Wrong With a Wiring

A registry is a list in which no target comes twice, and clients fit it if they serve its targets,
each of them once. Where something is wrong the first thing that is wrong is reported, and this is
what has to be made precise: the clients come before the registered targets, the order of either
list counts, and a client that serves no registered target is not looked at for repeating another.
`Registry.FirstFault` says so in terms of the two lists alone.

A list of targets is either all in place or it comes apart at its first entry that is not
(`inPlace_or_split`). In each case the scan of the list can be computed, so that what it finds is
what there is to be found, in both directions at once. For clients that are all in place it remains
to look for each target among them. None is left out iff the clients are the targets in another
order, and then the order in which they came is lost.

## Main definitions

* `Registry.InPlace`: Every entry is registered and none comes twice.
* `Registry.RepeatsFirst`: The first entry that repeats the target of an earlier one.
* `Registry.FirstFault`: What is wrong first with a registry and clients.
* `Line.client`: The client that a line holds.

## Theorems

* `Registry.inPlace_or_split`: Where a list of targets goes wrong.
* `Registry.firstMisplaced_of_inPlace`, `Registry.firstMisplaced_of_split`: What the scan finds.
* `Registry.ofList_ok_iff`, `Registry.ofList_error_iff`: When a list makes a registry.
* `Registry.wire_ok_iff`, `Registry.wire_error_iff`: When clients fit a registry.
* `Switchboard.wiring_exact`: Both, for the clients of a switchboard.
-/

namespace Gateway

namespace Registry

/-! ## The First Entry That Is Not in Place -/

/-- Every entry of a list is registered, and none comes twice. -/
def InPlace (registered ts : List Target) : Prop :=
  ts.Nodup ∧ ∀ t ∈ ts, t ∈ registered

section Scans

variable {registered : List Target}

theorem inPlace_nil : InPlace registered [] :=
  ⟨List.nodup_nil, fun _ ht => absurd ht List.not_mem_nil⟩

theorem InPlace.snoc {ts : List Target} (h : InPlace registered ts) (t : Target)
    (hregistered : t ∈ registered) (hnew : t ∉ ts) : InPlace registered (ts ++ [t]) := by
  refine ⟨List.nodup_append.mpr ⟨h.1, List.nodup_singleton t, ?_⟩, fun u hu => ?_⟩
  · intro u hu v hv hsame
    rw [hsame, List.mem_singleton.mp hv] at hu
    exact hnew hu
  · rcases List.mem_append.mp hu with hu | hu
    · exact h.2 u hu
    · rw [List.mem_singleton.mp hu]
      exact hregistered

/-- A list is in place, or it comes apart at the first entry that is not. -/
theorem inPlace_or_split (registered ts : List Target) :
    InPlace registered ts ∨ ∃ before t after, ts = before ++ t :: after
      ∧ InPlace registered before ∧ (t ∉ registered ∨ t ∈ before) := by
  induction ts using List.reverseRecOn with
  | nil => exact Or.inl inPlace_nil
  | append_singleton ts t ih =>
      rcases ih with hts | ⟨before, u, after, rfl, hbefore, hu⟩
      · by_cases hregistered : t ∈ registered
        · by_cases hnew : t ∈ ts
          · exact Or.inr ⟨ts, t, [], rfl, hts, Or.inr hnew⟩
          · exact Or.inl (hts.snoc t hregistered hnew)
        · exact Or.inr ⟨ts, t, [], rfl, hts, Or.inl hregistered⟩
      · refine Or.inr ⟨before, u, after ++ [t], ?_, hbefore, hu⟩
        rw [List.append_assoc, List.cons_append]

/-- The scan passes over entries that are in place and keeps them in mind. -/
theorem firstMisplaced_append (ts rest seen : List Target) (h : InPlace registered ts)
    (hunseen : ∀ t ∈ ts, t ∉ seen) :
    firstMisplaced registered seen (ts ++ rest)
      = firstMisplaced registered (ts.reverse ++ seen) rest := by
  induction ts generalizing seen with
  | nil => rfl
  | cons t ts ih =>
      rcases List.nodup_cons.mp h.1 with ⟨hnew, hnodup⟩
      have hnext : ∀ u ∈ ts, u ∉ t :: seen := fun u hu hmem => by
        rcases List.mem_cons.mp hmem with rfl | hmem
        · exact hnew hu
        · exact hunseen u (List.mem_cons_of_mem t hu) hmem
      rw [List.cons_append, firstMisplaced,
        if_neg (not_not_intro (h.2 t List.mem_cons_self)),
        if_neg (hunseen t List.mem_cons_self),
        ih (t :: seen) ⟨hnodup, fun u hu => h.2 u (List.mem_cons_of_mem t hu)⟩ hnext,
        List.reverse_cons, List.append_assoc, List.singleton_append]

theorem firstMisplaced_of_inPlace (ts : List Target) (h : InPlace registered ts) :
    firstMisplaced registered [] ts = none := by
  have hscan := firstMisplaced_append ts [] [] h fun _ _ => List.not_mem_nil
  rw [List.append_nil] at hscan
  exact hscan

/-- Of an entry that is not registered it is not asked whether it repeats another. -/
theorem firstMisplaced_of_split (before after : List Target) (t : Target)
    (hbefore : InPlace registered before) (ht : t ∉ registered ∨ t ∈ before) :
    firstMisplaced registered [] (before ++ t :: after)
      = some (if t ∈ registered then .duplicateTarget t else .unregisteredClient t) := by
  rw [firstMisplaced_append before _ [] hbefore fun _ _ => List.not_mem_nil, List.append_nil,
    firstMisplaced]
  by_cases hregistered : t ∈ registered
  · rw [if_neg (not_not_intro hregistered), if_pos hregistered,
      if_pos (List.mem_reverse.mpr (ht.resolve_left (not_not_intro hregistered)))]
  · rw [if_pos hregistered, if_neg hregistered]

/-- Among registered targets only a repeated one can be wrong. -/
theorem firstMisplaced_of_registered (seen ts : List Target) (h : ∀ t ∈ ts, t ∈ registered) :
    firstMisplaced registered seen ts = (firstRepeated seen ts).map .duplicateTarget := by
  induction ts generalizing seen with
  | nil => rfl
  | cons t ts ih =>
      rw [firstMisplaced, firstRepeated, if_neg (not_not_intro (h t List.mem_cons_self)),
        ih (t :: seen) fun u hu => h u (List.mem_cons_of_mem t hu)]
      by_cases hseen : t ∈ seen
      · rw [if_pos hseen, if_pos hseen, Option.map_some]
      · rw [if_neg hseen, if_neg hseen]

end Scans

/-! ## Registries -/

/-- Where no target comes twice there is none to be reported. -/
theorem firstRepeated_of_nodup (ts : List Target) (h : ts.Nodup) : firstRepeated [] ts = none := by
  have hscan : firstMisplaced ts [] ts = _ := firstMisplaced_of_registered [] ts fun _ ht => ht
  rw [firstMisplaced_of_inPlace ts ⟨h, fun _ ht => ht⟩] at hscan
  exact Option.map_eq_none_iff.mp hscan.symm

theorem firstRepeated_of_split (before after : List Target) (t : Target) (hbefore : before.Nodup)
    (ht : t ∈ before) : firstRepeated [] (before ++ t :: after) = some t := by
  have hmem : t ∈ before ++ t :: after := List.mem_append_left _ ht
  have hscan : firstMisplaced (before ++ t :: after) [] (before ++ t :: after) = _ :=
    firstMisplaced_of_registered [] _ fun _ hu => hu
  rw [firstMisplaced_of_split before after t
    ⟨hbefore, fun u hu => List.mem_append_left _ hu⟩ (Or.inr ht), if_pos hmem] at hscan
  rcases Option.map_eq_some_iff.mp hscan.symm with ⟨u, hu, hsame⟩
  rw [hu, WiringError.duplicateTarget.inj hsame]

theorem ofList_of_none {endpoints : List Endpoint}
    (h : firstRepeated [] (endpoints.map Endpoint.target) = none) :
    ∃ r, ofList endpoints = .ok r ∧ r.endpoints = endpoints := by
  unfold ofList
  split
  next t ht => exact absurd (ht.symm.trans h) (Option.some_ne_none t)
  next => exact ⟨_, rfl, rfl⟩

theorem ofList_of_some {endpoints : List Endpoint} {t : Target}
    (h : firstRepeated [] (endpoints.map Endpoint.target) = some t) :
    ofList endpoints = .error (.duplicateTarget t) := by
  unfold ofList
  split
  next u hu => rw [Option.some.inj (hu.symm.trans h)]
  next hnone => exact absurd (h.symm.trans hnone) (Option.some_ne_none t)

/-- An entry that repeats an earlier one, none before it doing so. -/
def RepeatsFirst (endpoints : List Endpoint) (entry : Endpoint) : Prop :=
  ∃ before after, endpoints = before ++ entry :: after
    ∧ (before.map Endpoint.target).Nodup ∧ entry.target ∈ before.map Endpoint.target

theorem ofList_of_repeatsFirst {endpoints : List Endpoint} {entry : Endpoint}
    (h : RepeatsFirst endpoints entry) :
    ofList endpoints = .error (.duplicateTarget entry.target) := by
  rcases h with ⟨before, after, rfl, hbefore, hagain⟩
  refine ofList_of_some ?_
  rw [List.map_append, List.map_cons]
  exact firstRepeated_of_split _ _ _ hbefore hagain

/-- Unless no target comes twice there is a first entry that repeats another. -/
theorem nodup_or_repeatsFirst (endpoints : List Endpoint) :
    (endpoints.map Endpoint.target).Nodup ∨ ∃ entry, RepeatsFirst endpoints entry := by
  rcases inPlace_or_split (endpoints.map Endpoint.target) (endpoints.map Endpoint.target) with
    h | ⟨before, t, after, hsplit, hbefore, ht⟩
  · exact Or.inl h.1
  · have hmem : t ∈ endpoints.map Endpoint.target := by
      rw [hsplit]
      exact List.mem_append_right _ List.mem_cons_self
    rcases List.map_eq_append_iff.mp hsplit with ⟨front, back, rfl, rfl, hback⟩
    rcases List.map_eq_cons_iff.mp hback with ⟨entry, others, rfl, rfl, _⟩
    exact Or.inr ⟨entry, front, others, rfl, hbefore.1, ht.resolve_left (not_not_intro hmem)⟩

/-- A registry is its endpoints. -/
theorem eq_of_endpoints {r s : Registry} (h : r.endpoints = s.endpoints) : r = s := by
  rcases r with ⟨endpoints, _⟩
  subst h
  rfl

/-- A list makes a registry iff no target comes twice in it, and the registry is that list. -/
theorem ofList_ok_iff (endpoints : List Endpoint) (r : Registry) :
    ofList endpoints = .ok r ↔ (endpoints.map Endpoint.target).Nodup ∧ r.endpoints = endpoints := by
  rcases nodup_or_repeatsFirst endpoints with hnodup | ⟨entry, hentry⟩
  · rcases ofList_of_none (firstRepeated_of_nodup _ hnodup) with ⟨s, hs, hsame⟩
    rw [hs]
    refine ⟨fun h => ?_, fun h => ?_⟩
    · rw [← Except.ok.inj h]
      exact ⟨hnodup, hsame⟩
    · rw [eq_of_endpoints (hsame.trans h.2.symm)]
  · rw [ofList_of_repeatsFirst hentry]
    refine ⟨fun h => Except.noConfusion rfl rfl (heq_of_eq h), fun h => ?_⟩
    rcases hentry with ⟨before, after, rfl, _, hagain⟩
    -- The entry comes twice after all.
    rw [List.map_append, List.map_cons] at h
    exact absurd rfl ((List.nodup_append.mp h.1).2.2 _ hagain _ List.mem_cons_self)

/-- A list makes no registry iff an entry repeats an earlier one, and the first that does is
    reported. -/
theorem ofList_error_iff (endpoints : List Endpoint) (e : WiringError) :
    ofList endpoints = .error e
      ↔ ∃ entry, RepeatsFirst endpoints entry ∧ e = .duplicateTarget entry.target := by
  refine ⟨fun h => ?_, ?_⟩
  · rcases nodup_or_repeatsFirst endpoints with hnodup | ⟨entry, hentry⟩
    · rcases ofList_of_none (firstRepeated_of_nodup _ hnodup) with ⟨s, hs, _⟩
      exact Except.noConfusion rfl rfl (heq_of_eq (hs.symm.trans h))
    · exact ⟨entry, hentry, Except.error.inj (h.symm.trans (ofList_of_repeatsFirst hentry))⟩
  · rintro ⟨entry, hentry, rfl⟩
    exact ofList_of_repeatsFirst hentry

theorem nodup_targets (r : Registry) : r.targets.Nodup :=
  r.distinct

/-! ## Clients -/

/-- What is wrong first with a registry and the targets that clients serve. A client is wrong that
    serves no registered target, or one that an earlier client serves; a registered target is wrong
    that no client serves, if no client is wrong. -/
inductive FirstFault (registered served : List Target) : WiringError → Prop
  /-- The first wrong client serves no registered target. -/
  | unregistered (before after : List Target) (t : Target) (hserved : served = before ++ t :: after)
      (hbefore : InPlace registered before) (ht : t ∉ registered) :
      FirstFault registered served (.unregisteredClient t)
  /-- The first wrong client serves a registered target that an earlier one serves. -/
  | repeated (before after : List Target) (t : Target) (hserved : served = before ++ t :: after)
      (hbefore : InPlace registered before) (ht : t ∈ registered) (hagain : t ∈ before) :
      FirstFault registered served (.duplicateTarget t)
  /-- No client is wrong, and the first target that none serves is the one. -/
  | missing (before after : List Target) (t : Target) (hserved : InPlace registered served)
      (hregistered : registered = before ++ t :: after) (hbefore : ∀ u ∈ before, u ∈ served)
      (ht : t ∉ served) : FirstFault registered served (.missingClient t)

section Clients

variable {α : Type} {clients : List (Target × α)}

theorem place_targets (clients : List (Target × α)) (ts : List Target) (lines : List (Target × α))
    (h : place clients ts = .ok lines) : lines.map Prod.fst = ts := by
  induction ts generalizing lines with
  | nil =>
      rw [← Except.ok.inj h]
      rfl
  | cons t ts ih =>
      unfold place at h
      cases hfind : clients.find? fun c => c.1 == t with
      | none =>
          rw [hfind] at h
          contradiction
      | some c =>
          rw [hfind] at h
          cases hrest : place clients ts with
          | error e =>
              rw [hrest] at h
              contradiction
          | ok rest =>
              rw [hrest] at h
              have hsame := List.find?_some hfind
              have hc : c.1 = t := beq_iff_eq.mp hsame
              rw [← Except.ok.inj h, List.map_cons, hc, ih rest hrest]

/-- A target that a client serves is given one that does. -/
theorem find?_of_served {t : Target} (h : t ∈ clients.map Prod.fst) :
    ∃ c ∈ clients, (clients.find? fun c => c.1 == t) = some c := by
  rcases List.mem_map.mp h with ⟨c, hc, rfl⟩
  cases hfind : clients.find? fun d => d.1 == c.1 with
  | none => exact absurd (beq_self_eq_true c.1) (List.find?_eq_none.mp hfind c hc)
  | some d => exact ⟨d, List.mem_of_find?_eq_some hfind, rfl⟩

/-- Where every target is served all of them are placed, with clients from the list. -/
theorem exists_place {ts : List Target} (h : ∀ t ∈ ts, t ∈ clients.map Prod.fst) :
    ∃ lines, place clients ts = .ok lines ∧ ∀ c ∈ lines, c ∈ clients := by
  induction ts with
  | nil => exact ⟨[], rfl, fun _ hc => absurd hc List.not_mem_nil⟩
  | cons t ts ih =>
      rcases find?_of_served (h t List.mem_cons_self) with ⟨c, hc, hfind⟩
      rcases ih fun u hu => h u (List.mem_cons_of_mem t hu) with ⟨lines, hlines, hmem⟩
      refine ⟨c :: lines, ?_, fun d hd => ?_⟩
      · rw [place, hfind, hlines]
        rfl
      · rcases List.mem_cons.mp hd with rfl | hd
        · exact hc
        · exact hmem d hd

/-- The first target that is not served is reported. -/
theorem place_of_split (before after : List Target) (t : Target)
    (hbefore : ∀ u ∈ before, u ∈ clients.map Prod.fst) (ht : t ∉ clients.map Prod.fst) :
    place clients (before ++ t :: after) = .error (.missingClient t) := by
  induction before with
  | nil =>
      have hfind : (clients.find? fun c => c.1 == t) = none :=
        List.find?_eq_none.mpr fun c hc hsame =>
          ht (List.mem_map.mpr ⟨c, hc, beq_iff_eq.mp hsame⟩)
      rw [List.nil_append, place, hfind]
  | cons u before ih =>
      rcases find?_of_served (hbefore u List.mem_cons_self) with ⟨c, _, hfind⟩
      rw [List.cons_append, place, hfind, ih fun v hv => hbefore v (List.mem_cons_of_mem u hv)]
      rfl

/-- A fault is found, whichever it is. -/
theorem wire_of_fault {registered : List Target} {e : WiringError}
    (h : FirstFault registered (clients.map Prod.fst) e) : wire registered clients = .error e := by
  rw [wire]
  cases h with
  | unregistered before after t hserved hbefore ht =>
      rw [hserved, firstMisplaced_of_split before after t hbefore (Or.inl ht), if_neg ht]
  | repeated before after t hserved hbefore ht hagain =>
      rw [hserved, firstMisplaced_of_split before after t hbefore (Or.inr hagain), if_pos ht]
  | missing before after t hserved hregistered hbefore ht =>
      rw [firstMisplaced_of_inPlace _ hserved, hregistered]
      exact place_of_split before after t hbefore ht

/-- Targets are all served, or there is a first that is not. -/
theorem served_or_split (registered served : List Target) :
    (∀ t ∈ registered, t ∈ served) ∨ ∃ before t after, registered = before ++ t :: after
      ∧ (∀ u ∈ before, u ∈ served) ∧ t ∉ served := by
  induction registered with
  | nil => exact Or.inl fun _ ht => absurd ht List.not_mem_nil
  | cons t ts ih =>
      by_cases ht : t ∈ served
      · rcases ih with hall | ⟨before, u, after, rfl, hbefore, hu⟩
        · exact Or.inl (List.forall_mem_cons.mpr ⟨ht, hall⟩)
        · exact Or.inr ⟨t :: before, u, after, rfl, List.forall_mem_cons.mpr ⟨ht, hbefore⟩, hu⟩
      · exact Or.inr ⟨[], t, ts, rfl, fun _ hu => absurd hu List.not_mem_nil, ht⟩

/-- Clients serve the registered targets, each once, or something is wrong. -/
theorem perm_or_fault (registered served : List Target) (hdistinct : registered.Nodup) :
    served.Perm registered ∨ ∃ e, FirstFault registered served e := by
  rcases inPlace_or_split registered served with hplace | ⟨before, t, after, hsplit, hbefore, ht⟩
  · rcases served_or_split registered served with hall | ⟨before, t, after, hsplit, hbefore, ht⟩
    · exact Or.inl ((List.perm_ext_iff_of_nodup hplace.1 hdistinct).mpr fun t =>
        ⟨hplace.2 t, hall t⟩)
    · exact Or.inr ⟨_, .missing before after t hplace hsplit hbefore ht⟩
  · by_cases hregistered : t ∈ registered
    · exact Or.inr ⟨_, .repeated before after t hsplit hbefore hregistered
        (ht.resolve_left (not_not_intro hregistered))⟩
    · exact Or.inr ⟨_, .unregistered before after t hsplit hbefore hregistered⟩

/-- Two clients of one target are the same where the clients serve targets once. -/
theorem eq_of_target (hdistinct : (clients.map Prod.fst).Nodup) {c d : Target × α}
    (hc : c ∈ clients) (hd : d ∈ clients) (h : c.1 = d.1) : c = d :=
  List.inj_on_of_nodup_map hdistinct hc hd h

/-- So clients are known by the targets that they serve. -/
theorem eq_of_targets (hdistinct : (clients.map Prod.fst).Nodup) {lines others : List (Target × α)}
    (hlines : ∀ c ∈ lines, c ∈ clients) (hothers : ∀ c ∈ others, c ∈ clients)
    (h : lines.map Prod.fst = others.map Prod.fst) : lines = others := by
  induction lines generalizing others with
  | nil => exact (List.map_eq_nil_iff.mp h.symm).symm
  | cons c lines ih =>
      rcases List.map_eq_cons_iff.mp h.symm with ⟨d, rest, rfl, hsame, hrest⟩
      rcases List.forall_mem_cons.mp hlines with ⟨hc, hlines⟩
      rcases List.forall_mem_cons.mp hothers with ⟨hd, hothers⟩
      rw [eq_of_target hdistinct hc hd hsame.symm, ih hlines hothers hrest.symm]

/-- Clients that serve the registered targets are put in their order. -/
theorem exists_wire {registered : List Target} (hdistinct : registered.Nodup)
    (h : (clients.map Prod.fst).Perm registered) :
    ∃ lines, wire registered clients = .ok lines ∧ lines.Perm clients
      ∧ lines.map Prod.fst = registered := by
  have hserved : (clients.map Prod.fst).Nodup := h.nodup_iff.mpr hdistinct
  have hall : ∀ t ∈ registered, t ∈ clients.map Prod.fst := fun t ht => h.mem_iff.mpr ht
  rcases exists_place hall with ⟨lines, hlines, hmem⟩
  have htargets := place_targets clients registered lines hlines
  refine ⟨lines, ?_, ?_, htargets⟩
  · rw [wire, firstMisplaced_of_inPlace _ ⟨hserved, fun t ht => h.mem_iff.mp ht⟩]
    exact hlines
  · have hnodup : lines.Nodup := List.Nodup.of_map Prod.fst (htargets ▸ hdistinct)
    refine (List.perm_ext_iff_of_nodup hnodup (List.Nodup.of_map Prod.fst hserved)).mpr fun c =>
      ⟨hmem c, fun hc => ?_⟩
    -- The line of the client's target has a client, and there is no other one.
    have ht : c.1 ∈ lines.map Prod.fst := by
      rw [htargets]
      exact h.mem_iff.mp (List.mem_map_of_mem hc)
    rcases List.mem_map.mp ht with ⟨d, hd, hsame⟩
    rw [← eq_of_target hserved (hmem d hd) hc hsame]
    exact hd

/-- Clients fit a registry iff they are its targets' clients in some order, and come out in the
    order of the registry. -/
theorem wire_ok_iff {registered : List Target} (hdistinct : registered.Nodup)
    (lines : List (Target × α)) :
    wire registered clients = .ok lines
      ↔ lines.Perm clients ∧ lines.map Prod.fst = registered := by
  refine ⟨fun h => ?_, fun h => ?_⟩
  · rcases perm_or_fault registered (clients.map Prod.fst) hdistinct with hperm | ⟨e, he⟩
    · rcases exists_wire hdistinct hperm with ⟨found, hfound, hsame⟩
      rw [Except.ok.inj (h.symm.trans hfound)]
      exact hsame
    · exact Except.noConfusion rfl rfl (heq_of_eq (h.symm.trans (wire_of_fault he)))
  · rcases h with ⟨hlines, htargets⟩
    have hserved := htargets ▸ (hlines.map Prod.fst).symm
    rcases exists_wire hdistinct hserved with ⟨found, hfound, hperm, hsame⟩
    rw [hfound, eq_of_targets (hserved.nodup_iff.mpr hdistinct) (fun c hc => hperm.mem_iff.mp hc)
      (fun c hc => hlines.mem_iff.mp hc) (hsame.trans htargets.symm)]

/-- Clients do not fit a registry iff something is wrong, and what is wrong first is reported. -/
theorem wire_error_iff {registered : List Target} (hdistinct : registered.Nodup) (e : WiringError) :
    wire registered clients = .error e ↔ FirstFault registered (clients.map Prod.fst) e := by
  refine ⟨fun h => ?_, wire_of_fault⟩
  rcases perm_or_fault registered (clients.map Prod.fst) hdistinct with hperm | ⟨f, hf⟩
  · rcases exists_wire hdistinct hperm with ⟨lines, hlines, _⟩
    exact Except.noConfusion rfl rfl (heq_of_eq (hlines.symm.trans h))
  · rw [Except.error.inj (h.symm.trans (wire_of_fault hf))]
    exact hf

end Clients

end Registry

/-! ## The Switchboard -/

/-- The client that a line holds, with the target of the line. -/
def Line.client (l : Line) : Target × Backend :=
  (l.target, l.backend)

namespace Switchboard

theorem ofLines_clients (lines : List (Target × Backend)) (maxCalls timeout : Nat) :
    (ofLines lines maxCalls timeout).lines.map Line.client = lines := by
  rw [ofLines, List.map_map]
  exact List.map_id'' (fun _ => rfl) lines

/-- There is one line for each registered target, in the order of the registry. -/
theorem ofRegistry_targets (registered : List Target) (clients : List (Target × Backend))
    (maxCalls timeout : Nat) (b : Switchboard)
    (h : ofRegistry registered clients maxCalls timeout = .ok b) : b.targets = registered := by
  unfold ofRegistry Registry.wire at h
  cases hmisplaced : Registry.firstMisplaced registered [] (clients.map Prod.fst) with
  | some e =>
      rw [hmisplaced] at h
      contradiction
  | none =>
      rw [hmisplaced] at h
      cases hplace : Registry.place clients registered with
      | error e =>
          simp only [hplace] at h
          contradiction
      | ok lines =>
          simp only [hplace] at h
          rw [← Except.ok.inj h, ← Registry.place_targets clients registered lines hplace]
          simp only [ofLines, targets, List.map_map]
          rfl

/-- A switchboard is there iff its clients fit the registry. -/
theorem ofRegistry_ok_iff (r : Registry) (clients : List (Target × Backend))
    (maxCalls timeout : Nat) (b : Switchboard) :
    ofRegistry r.targets clients maxCalls timeout = .ok b
      ↔ ∃ lines, lines.Perm clients ∧ lines.map Prod.fst = r.targets
        ∧ b = ofLines lines maxCalls timeout := by
  rw [ofRegistry]
  refine ⟨fun h => ?_, ?_⟩
  · cases hwire : Registry.wire r.targets clients with
    | error e =>
        rw [hwire] at h
        cases h
    | ok lines =>
        rw [hwire] at h
        rcases (Registry.wire_ok_iff r.nodup_targets lines).mp hwire with ⟨hperm, htargets⟩
        exact ⟨lines, hperm, htargets, (Except.ok.inj h).symm⟩
  · rintro ⟨lines, hperm, htargets, rfl⟩
    rw [(Registry.wire_ok_iff r.nodup_targets lines).mpr ⟨hperm, htargets⟩]
    rfl

theorem ofRegistry_error_iff (r : Registry) (clients : List (Target × Backend))
    (maxCalls timeout : Nat) (e : WiringError) :
    ofRegistry r.targets clients maxCalls timeout = .error e
      ↔ Registry.FirstFault r.targets (clients.map Prod.fst) e := by
  rw [← Registry.wire_error_iff r.nodup_targets e, ofRegistry]
  cases Registry.wire r.targets clients with
  | error f =>
      exact ⟨fun h => congrArg _ (Except.error.inj h), fun h => congrArg _ (Except.error.inj h)⟩
  | ok lines =>
      exact ⟨fun h => Except.noConfusion rfl rfl (heq_of_eq h),
        fun h => Except.noConfusion rfl rfl (heq_of_eq h)⟩

/-- A list of endpoints makes a registry iff no target comes twice in it, in the order of the list,
    and otherwise the first entry that repeats an earlier one is reported. Clients make a
    switchboard iff their targets are those of the registry in some order. It then has a line for
    each target in the order of the registry, every client is on one of them, and on the line of a
    target is the only client that serves it; any other order of the clients comes to the same
    switchboard. Otherwise what is wrong first is reported. -/
theorem wiring_exact (endpoints : List Endpoint) (r : Registry) (clients : List (Target × Backend))
    (maxCalls timeout : Nat) :
    ((∃ s, Registry.ofList endpoints = .ok s) ↔ (endpoints.map Endpoint.target).Nodup)
      ∧ (∀ s, Registry.ofList endpoints = .ok s → s.endpoints = endpoints)
      ∧ (∀ e, Registry.ofList endpoints = .error e
        ↔ ∃ entry, Registry.RepeatsFirst endpoints entry ∧ e = .duplicateTarget entry.target)
      ∧ ((∃ b, ofRegistry r.targets clients maxCalls timeout = .ok b)
        ↔ (clients.map Prod.fst).Perm r.targets)
      ∧ (∀ b, ofRegistry r.targets clients maxCalls timeout = .ok b →
        b.targets = r.targets
          ∧ (b.lines.map Line.client).Perm clients
          ∧ (∀ l ∈ b.lines, ∀ c ∈ clients, c.1 = l.target ↔ c = l.client)
          ∧ ∀ others, others.Perm clients →
            ofRegistry r.targets others maxCalls timeout = .ok b)
      ∧ ∀ e, ofRegistry r.targets clients maxCalls timeout = .error e
        ↔ Registry.FirstFault r.targets (clients.map Prod.fst) e := by
  refine ⟨?_, fun s hs => ((Registry.ofList_ok_iff endpoints s).mp hs).2,
    Registry.ofList_error_iff endpoints, ?_, ?_, ofRegistry_error_iff r clients maxCalls timeout⟩
  · refine ⟨fun ⟨s, hs⟩ => ((Registry.ofList_ok_iff endpoints s).mp hs).1, fun h => ?_⟩
    exact ⟨⟨endpoints, h⟩, (Registry.ofList_ok_iff endpoints _).mpr ⟨h, rfl⟩⟩
  · refine ⟨?_, fun h => ?_⟩
    · rintro ⟨b, hb⟩
      rcases (ofRegistry_ok_iff r clients maxCalls timeout b).mp hb with ⟨lines, hperm, hlines, _⟩
      exact hlines ▸ (hperm.map Prod.fst).symm
    · rcases Registry.exists_wire r.nodup_targets h with ⟨lines, _, hperm, hlines⟩
      exact ⟨_, (ofRegistry_ok_iff r clients maxCalls timeout _).mpr ⟨lines, hperm, hlines, rfl⟩⟩
  · intro b hb
    rcases (ofRegistry_ok_iff r clients maxCalls timeout b).mp hb with
      ⟨lines, hperm, hlines, rfl⟩
    have hclients := ofLines_clients lines maxCalls timeout
    have hserved : (clients.map Prod.fst).Nodup :=
      (hperm.map Prod.fst).nodup_iff.mp (hlines ▸ r.nodup_targets)
    refine ⟨ofRegistry_targets r.targets clients maxCalls timeout _ hb, hclients.symm ▸ hperm,
      fun l hl c hc => ⟨fun hsame => ?_, fun hsame => hsame ▸ rfl⟩, fun others hothers => ?_⟩
    · have hl : l.client ∈ clients := by
        rw [← hperm.mem_iff, ← hclients]
        exact List.mem_map_of_mem hl
      exact Registry.eq_of_target hserved hc hl hsame
    · exact (ofRegistry_ok_iff r others maxCalls timeout _).mpr
        ⟨lines, hperm.trans hothers.symm, hlines, rfl⟩

/-- The clients of all targets, in no order of any registry. -/
def shuffled : List (Target × Backend) :=
  [(.aiMl, .echo), (.notification, .echo), (.inventory, .echo)]

/-- Shuffled clients come out in the order of the registry, and so they do when they are turned
    round. With the last of them in place of the first, its target is served twice and another one
    not at all, and it is the client that is reported. -/
theorem wiring_exact_shuffled :
    (shuffled.map Prod.fst).Perm Registry.default.targets
      ∧ (∃ b, ofRegistry Registry.default.targets shuffled 1 0 = .ok b
        ∧ b.targets = [.notification, .inventory, .aiMl]
        ∧ (b.lines.map Line.client).Perm shuffled
        ∧ ofRegistry Registry.default.targets shuffled.reverse 1 0 = .ok b)
      ∧ ofRegistry Registry.default.targets ((.inventory, .echo) :: shuffled.tail) 1 0
        = .error (.duplicateTarget .inventory)
      ∧ Registry.ofList
          [⟨.aiMl, "a", 1⟩, ⟨.inventory, "b", 2⟩, ⟨.aiMl, "c", 3⟩, ⟨.inventory, "d", 4⟩]
        = .error (.duplicateTarget .aiMl) := by
  have hperm : (shuffled.map Prod.fst).Perm Registry.default.targets := by decide
  rcases wiring_exact [⟨.aiMl, "a", 1⟩, ⟨.inventory, "b", 2⟩, ⟨.aiMl, "c", 3⟩, ⟨.inventory, "d", 4⟩]
    Registry.default shuffled 1 0 with ⟨_, _, hlist, hfits, hboard, _⟩
  rcases wiring_exact [] Registry.default ((.inventory, .echo) :: shuffled.tail) 1 0 with
    ⟨_, _, _, _, _, hfault⟩
  rcases hfits.mpr hperm with ⟨b, hb⟩
  rcases hboard b hb with ⟨htargets, hclients, _, hothers⟩
  refine ⟨hperm, ⟨b, hb, htargets, hclients, hothers _ (List.reverse_perm shuffled)⟩, ?_, ?_⟩
  · exact (hfault _).mpr (.repeated [.inventory, .notification] [] .inventory rfl
      ⟨by decide, by decide⟩ (by decide) (by decide))
  · exact (hlist _).mpr ⟨⟨.aiMl, "c", 3⟩, ⟨[⟨.aiMl, "a", 1⟩, ⟨.inventory, "b", 2⟩],
      [⟨.inventory, "d", 4⟩], rfl, by decide, by decide⟩, rfl⟩

end Switchboard

end Gateway
