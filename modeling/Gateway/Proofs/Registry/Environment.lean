import Mathlib.Data.Nat.Digits.Defs
import Mathlib.Logic.Basic
import Gateway.Proofs.Registry.Wiring
import Gateway.Proofs.Text.Trimming

/-!
# Where the Environment Says the Backends Are

The variables are read with no failure, so whatever does not say a port is passed over without a
word, and what says one has to be known exactly. A port is an optional plus sign and digits, of
which any number may be zeros at the front, and white space around it does not count. Everything
else is one of five: there is nothing, or nothing but the plus sign, or a character that has no
place there, or a plus sign in the wrong place, or a number that sixteen bits do not hold
(`portNumeral_or_unfit`). None of these is a port, so the default stands in for these and for no
others (`fromLookup_exact`).

## Main definitions

* `Decimal.Spells`: Digits spell a number.
* `Registry.PortNumeral`, `Registry.Unfit`: What is a port and what is none.
* `Registry.SaysPort`, `Registry.SaysNoPort`: Whether a variable says a port.

## Theorems

* `Decimal.ofText?_eq_some_iff`: Which texts are read as numbers.
* `Registry.port?_eq_some_iff`: Which texts are read as ports.
* `Registry.portNumeral_or_unfit`, `Registry.not_portNumeral_of_unfit`: What is no port.
* `Registry.fromLookup_exact`: The registry that the variables make.
-/

namespace Gateway

namespace Decimal

/-- Digits spell a number. There is one at least, and any number of them may be zeros in front. -/
structure Spells (cs : List Char) (n : Nat) : Prop where
  /-- There is a digit. -/
  nonempty : cs ≠ []
  /-- There is nothing but digits. -/
  digits : ∀ c ∈ cs, c.isDigit = true
  /-- The last digit counts ones, the one before it tens, and so on. -/
  value : Nat.ofDigits 10 (cs.reverse.map fun c => c.toNat - 48) = n

theorem foldl_eq_ofDigits (cs : List Char) :
    cs.foldl (fun n c => n * 10 + (c.toNat - 48)) 0
      = Nat.ofDigits 10 (cs.reverse.map fun c => c.toNat - 48) := by
  induction cs using List.reverseRecOn with
  | nil => rfl
  | append_singleton cs c ih =>
      rw [List.foldl_append, List.foldl_cons, List.foldl_nil, ih, List.reverse_append,
        List.reverse_singleton, List.singleton_append, List.map_cons, Nat.ofDigits_cons]
      omega

theorem isDigit_iff_toNat (c : Char) : c.isDigit = true ↔ 48 ≤ c.toNat ∧ c.toNat ≤ 57 := by
  rw [Char.isDigit, Bool.and_eq_true, decide_eq_true_eq, decide_eq_true_eq]
  rfl

/-- A text is read as a number iff it spells that number. -/
theorem ofText?_eq_some_iff (cs : List Char) (n : Nat) :
    ofText? (String.ofList cs) = some n ↔ Spells cs n := by
  have hall : (cs.all fun c => 48 ≤ c.toNat && c.toNat ≤ 57) = true
      ↔ ∀ c ∈ cs, c.isDigit = true := by
    rw [List.all_eq_true]
    refine forall₂_congr fun c _ => ?_
    rw [isDigit_iff_toNat, Bool.and_eq_true, decide_eq_true_eq, decide_eq_true_eq]
  rw [ofText?, String.toList_ofList]
  by_cases hrefused : (cs.isEmpty || !cs.all fun c => 48 ≤ c.toNat && c.toNat ≤ 57) = true
  · rw [if_pos hrefused]
    refine ⟨fun h => absurd h (Option.some_ne_none n).symm, fun h => ?_⟩
    rw [hall.mpr h.digits, Bool.not_true, Bool.or_false, List.isEmpty_iff] at hrefused
    exact absurd hrefused h.nonempty
  · rw [if_neg hrefused]
    rw [Bool.or_eq_true, not_or, List.isEmpty_iff, Bool.not_eq_true', Bool.not_eq_false,
      hall] at hrefused
    refine ⟨fun h => ⟨hrefused.1, hrefused.2, ?_⟩, fun h => ?_⟩
    · rw [← foldl_eq_ofDigits]
      exact Option.some.inj h
    · rw [← h.value, ← foldl_eq_ofDigits]

end Decimal

namespace Registry

/-! ## Ports -/

/-- A port: digits, before which a plus sign may stand, that spell a number of sixteen bits. -/
def PortNumeral (cs : List Char) (n : Nat) : Prop :=
  ∃ ds, (cs = ds ∨ cs = '+' :: ds) ∧ Decimal.Spells ds n ∧ n ≤ 65535

/-- What is no port. -/
inductive Unfit : List Char → Prop
  /-- There is nothing. -/
  | empty : Unfit []
  /-- There is nothing but the sign. -/
  | sign : Unfit ['+']
  /-- A character is neither a digit nor a plus sign, such as a minus sign. -/
  | foreign (cs : List Char) (c : Char) (hc : c ∈ cs) (hdigit : c.isDigit = false)
      (hplus : c ≠ '+') : Unfit cs
  /-- A plus sign does not stand at the beginning. -/
  | misplaced (front back : List Char) (hfront : front ≠ []) : Unfit (front ++ '+' :: back)
  /-- The number does not fit sixteen bits. -/
  | large (cs ds : List Char) (n : Nat) (hcs : cs = ds ∨ cs = '+' :: ds)
      (hds : Decimal.Spells ds n) (hlarge : 65535 < n) : Unfit cs

theorem not_spells_plus (cs : List Char) (n : Nat) (h : '+' ∈ cs) : ¬ Decimal.Spells cs n :=
  fun hspells => absurd (hspells.digits '+' h) (by decide)

/-- With or without the sign, a text spells one number at most. -/
theorem eq_of_spells {cs ds others : List Char} {m n : Nat} (hcs : cs = ds ∨ cs = '+' :: ds)
    (hothers : cs = others ∨ cs = '+' :: others) (hm : Decimal.Spells ds m)
    (hn : Decimal.Spells others n) : m = n := by
  have hsame : ds = others := by
    rcases hcs with rfl | rfl
    · rcases hothers with rfl | rfl
      · rfl
      · exact absurd hm (not_spells_plus _ m List.mem_cons_self)
    · rcases hothers with rfl | hcons
      · exact absurd hn (not_spells_plus _ n List.mem_cons_self)
      · exact (List.cons.inj hcons).2
  rw [← hm.value, ← hn.value, hsame]

/-- What is read as a number is what is left without the sign. -/
theorem port?_eq_bind {s : String} {ds : List Char}
    (h : s.toList = '+' :: ds ∨ s.toList = ds ∧ ∀ rest, ds ≠ '+' :: rest) :
    port? s = (Decimal.ofText? (String.ofList ds)).bind fun n =>
      if n < 65536 then some n else none := by
  unfold port?
  split
  next rest hplus =>
    have hds : rest = ds := by
      rcases h with h | ⟨h, hnot⟩
      · exact (List.cons.inj (hplus.symm.trans h)).2
      · exact absurd (h.symm.trans hplus) (hnot rest)
    rw [hds]
    dsimp only
    cases Decimal.ofText? (String.ofList ds) with
    | none => rfl
    | some m => rfl
  next hplus =>
    have hds : s.toList = ds := by
      rcases h with h | ⟨h, -⟩
      · exact absurd h (hplus ds)
      · exact h
    rw [hds]
    dsimp only
    cases Decimal.ofText? (String.ofList ds) with
    | none => rfl
    | some m => rfl

theorem port?_eq_some_of_digits {s : String} {ds : List Char} (n : Nat)
    (h : s.toList = '+' :: ds ∨ s.toList = ds ∧ ∀ rest, ds ≠ '+' :: rest) :
    port? s = some n ↔ Decimal.Spells ds n ∧ n ≤ 65535 := by
  rw [port?_eq_bind h, ← Decimal.ofText?_eq_some_iff]
  cases Decimal.ofText? (String.ofList ds) with
  | none => exact ⟨fun h => absurd h (Option.some_ne_none n).symm,
      fun h => absurd h.1 (Option.some_ne_none n).symm⟩
  | some m =>
      rw [Option.bind_some]
      by_cases hfits : m < 65536
      · simp only [if_pos hfits, Option.some.injEq]
        omega
      · simp only [if_neg hfits, Option.some.injEq, reduceCtorEq, false_iff]
        omega

/-- The sign is passed over, so that it may as well be missing. -/
theorem port?_eq_some_iff (s : String) (n : Nat) : port? s = some n ↔ PortNumeral s.toList n := by
  by_cases hplus : ∃ rest, s.toList = '+' :: rest
  · rcases hplus with ⟨rest, hrest⟩
    refine (port?_eq_some_of_digits n (Or.inl hrest)).trans
      ⟨fun h => ⟨rest, Or.inr hrest, h⟩, ?_⟩
    rintro ⟨ds, hds, h⟩
    rcases hds with hds | hds
    · -- Digits do not begin with a sign.
      rw [hrest] at hds
      exact absurd (hds ▸ h.1) (not_spells_plus _ n List.mem_cons_self)
    · rw [(List.cons.inj (hrest.symm.trans hds)).2]
      exact h
  · have hnot : ∀ rest, s.toList ≠ '+' :: rest := fun rest hrest => hplus ⟨rest, hrest⟩
    refine (port?_eq_some_of_digits n (Or.inr ⟨rfl, hnot⟩)).trans
      ⟨fun h => ⟨s.toList, Or.inl rfl, h⟩, ?_⟩
    rintro ⟨ds, hds, h⟩
    rcases hds with hds | hds
    · rw [hds]
      exact h
    · exact absurd hds (hnot ds)

/-- Whatever is no port is one of five. -/
theorem portNumeral_or_unfit (cs : List Char) : (∃ n, PortNumeral cs n) ∨ Unfit cs := by
  -- Digits with or without the sign before them are a port unless they are too large.
  have hspelled : ∀ ds, (cs = ds ∨ cs = '+' :: ds) → ds ≠ [] → (∀ c ∈ ds, c.isDigit = true) →
      (∃ n, PortNumeral cs n) ∨ Unfit cs := by
    intro ds hcs hnil hdigits
    rcases Nat.lt_or_ge 65535 (Nat.ofDigits 10 (ds.reverse.map fun c => c.toNat - 48)) with hn | hn
    · exact Or.inr (.large cs ds _ hcs ⟨hnil, hdigits, rfl⟩ hn)
    · exact Or.inl ⟨_, ds, hcs, ⟨hnil, hdigits, rfl⟩, hn⟩
  -- What follows the first character has a character out of place or consists of digits.
  have hrest : ∀ front rest, front ≠ [] → cs = front ++ rest →
      (∀ c ∈ rest, c.isDigit = true) ∨ Unfit cs := by
    intro front rest hfront hcs
    by_cases hdigits : ∀ c ∈ rest, c.isDigit = true
    · exact Or.inl hdigits
    · push Not at hdigits
      rcases hdigits with ⟨c, hc, hdigit⟩
      right
      by_cases hplus : c = '+'
      · rcases List.mem_iff_append.mp hc with ⟨before, after, rfl⟩
        rw [hcs, hplus, ← List.append_assoc]
        exact .misplaced _ _ (List.append_ne_nil_of_left_ne_nil hfront before)
      · exact .foreign cs c (hcs ▸ List.mem_append_right front hc)
          (Bool.eq_false_iff.mpr hdigit) hplus
  cases hcs : cs with
  | nil => exact Or.inr .empty
  | cons c rest =>
      rw [← hcs]
      rcases hrest [c] rest (List.cons_ne_nil c []) hcs with hdigits | hunfit
      · by_cases hplus : c = '+'
        · by_cases hnil : rest = []
          · right
            rw [hcs, hplus, hnil]
            exact .sign
          · exact hspelled rest (Or.inr (hplus ▸ hcs)) hnil hdigits
        · by_cases hdigit : c.isDigit = true
          · exact hspelled cs (Or.inl rfl) (hcs ▸ List.cons_ne_nil c rest)
              (hcs ▸ List.forall_mem_cons.mpr ⟨hdigit, hdigits⟩)
          · exact Or.inr (.foreign cs c (hcs ▸ List.mem_cons_self) (Bool.eq_false_iff.mpr hdigit)
              hplus)
      · exact Or.inr hunfit

/-- None of the five is a port. -/
theorem not_portNumeral_of_unfit {cs : List Char} (h : Unfit cs) (n : Nat) :
    ¬ PortNumeral cs n := by
  rintro ⟨ds, hcs, hds, hn⟩
  -- The digits are those of the text, less the sign if there is one.
  have hmem : ∀ c ∈ cs, c ∈ ds ∨ c = '+' := by
    rcases hcs with rfl | rfl
    · exact fun c hc => Or.inl hc
    · exact fun c hc => (List.mem_cons.mp hc).symm
  cases h with
  | empty =>
      rcases hcs with hnil | hcons
      · exact hds.nonempty hnil.symm
      · exact absurd hcons.symm (List.cons_ne_nil '+' ds)
  | sign =>
      rcases hcs with hsame | hcons
      · exact not_spells_plus ds n (hsame ▸ List.mem_cons_self) hds
      · exact hds.nonempty (List.cons.inj hcons).2.symm
  | foreign _ c hc hdigit hplus =>
      have hd := hds.digits c ((hmem c hc).resolve_right hplus)
      rw [hdigit] at hd
      exact Bool.false_ne_true hd
  | misplaced front back hfront =>
      refine not_spells_plus ds n ?_ hds
      rcases hcs with hsame | hcons
      · rw [← hsame]
        exact List.mem_append_right front List.mem_cons_self
      · rcases List.exists_cons_of_ne_nil hfront with ⟨c, front, rfl⟩
        rw [← (List.cons.inj hcons).2]
        exact List.mem_append_right front List.mem_cons_self
  | large _ others m hothers hothers' hlarge =>
      exact absurd (eq_of_spells hcs hothers hds hothers') (by omega)

/-! ## Variables -/

/-- A variable says a port, white space around it or not. -/
def SaysPort (found : Option String) (n : Nat) : Prop :=
  ∃ raw part, found = some raw ∧ Text.Trims raw.toList part ∧ PortNumeral part n

/-- A variable is missing or says no port. -/
def SaysNoPort (found : Option String) : Prop :=
  ∀ raw part, found = some raw → Text.Trims raw.toList part → Unfit part

theorem saysNoPort_of_unfit {raw : String} (h : Unfit (Text.trimChars raw.toList)) :
    SaysNoPort (some raw) := by
  intro other part hsame htrims
  rw [← Text.trimChars_of_trims htrims, ← Option.some.inj hsame]
  exact h

/-- A variable says a port or it says none, and not both. -/
theorem saysPort_xor_saysNoPort (found : Option String) :
    Xor (∃ n, SaysPort found n) (SaysNoPort found) := by
  have hnot : ∀ n, SaysPort found n → ¬ SaysNoPort found := by
    rintro n ⟨raw, part, hfound, htrims, hn⟩ hnone
    exact not_portNumeral_of_unfit (hnone raw part hfound htrims) n hn
  cases found with
  | none =>
      refine Or.inr ⟨fun raw part h => absurd h (Option.some_ne_none raw).symm, ?_⟩
      rintro ⟨n, raw, part, h, _⟩
      exact absurd h (Option.some_ne_none raw).symm
  | some raw =>
      rcases portNumeral_or_unfit (Text.trimChars raw.toList) with ⟨n, hn⟩ | hunfit
      · have hsays : SaysPort (some raw) n := ⟨raw, _, rfl, Text.trims_trimChars raw.toList, hn⟩
        exact Or.inl ⟨⟨n, hsays⟩, hnot n hsays⟩
      · have hsaysNone := saysNoPort_of_unfit hunfit
        exact Or.inr ⟨hsaysNone, fun ⟨n, hn⟩ => hnot n hn hsaysNone⟩

theorem portOf_of_saysPort (t : Target) {found : Option String} {n : Nat} (h : SaysPort found n) :
    portOf t found = n := by
  rcases h with ⟨raw, part, rfl, htrims, hn⟩
  rw [← Text.trimChars_of_trims htrims, ← Text.toList_trim] at hn
  rw [portOf, Option.bind_some, (port?_eq_some_iff _ n).mpr hn, Option.getD_some]

theorem portOf_of_saysNoPort (t : Target) {found : Option String} (h : SaysNoPort found) :
    portOf t found = t.defaultPort := by
  cases found with
  | none => rfl
  | some raw =>
      have hunfit := h raw _ rfl (Text.trims_trimChars raw.toList)
      rw [← Text.toList_trim] at hunfit
      have hnone : port? (Text.trim raw) = none :=
        Option.eq_none_iff_forall_ne_some.mpr fun n hn =>
          not_portNumeral_of_unfit hunfit n ((port?_eq_some_iff _ n).mp hn)
      rw [portOf, Option.bind_some, hnone, Option.getD_none]

theorem hostOf_of_visible (host : String) (h : ∃ c ∈ host.toList, Text.isBlank c = false) :
    hostOf (some host) = host := by
  have hall : Text.isAllBlank host = false := List.all_eq_false.mpr <| by
    rcases h with ⟨c, hc, hblank⟩
    exact ⟨c, hc, Bool.eq_false_iff.mp hblank⟩
  rw [hostOf, hall, if_neg Bool.false_ne_true]

theorem hostOf_of_blank {found : Option String}
    (h : ∀ host, found = some host → ∀ c ∈ host.toList, Text.isBlank c = true) :
    hostOf found = "localhost" := by
  cases found with
  | none => rfl
  | some host =>
      have hall : Text.isAllBlank host = true := List.all_eq_true.mpr (h host rfl)
      rw [hostOf, if_pos hall]
      rfl

theorem mem_endpoints_fromLookup {lookup : String → Option String} {e : Endpoint}
    (h : e ∈ (fromLookup lookup).endpoints) : e = endpointFrom lookup e.target := by
  rcases List.mem_map.mp h with ⟨t, _, rfl⟩
  rfl

/-- The variables make a registry of all targets in order, no name twice. The host of a target is
    what its variable says as it stands, unless this is white space only or the variable is missing.
    Its port is the number in its variable if that says a port, and otherwise the target's own.
    Nothing else is looked at than the two variables of each target. -/
theorem fromLookup_exact (lookup : String → Option String) :
    (fromLookup lookup).targets = [.notification, .inventory, .aiMl]
      ∧ ((fromLookup lookup).targets.map Target.name).Nodup
      ∧ (∀ e ∈ (fromLookup lookup).endpoints,
        (∀ host, lookup (e.target.variablePrefix ++ "_HOST") = some host →
            (∃ c ∈ host.toList, Text.isBlank c = false) → e.host = host)
          ∧ ((∀ host, lookup (e.target.variablePrefix ++ "_HOST") = some host →
            ∀ c ∈ host.toList, Text.isBlank c = true) → e.host = "localhost")
          ∧ (∀ n, SaysPort (lookup (e.target.variablePrefix ++ "_PORT")) n → e.port = n)
          ∧ (SaysNoPort (lookup (e.target.variablePrefix ++ "_PORT")) →
            e.port = e.target.defaultPort)
          ∧ Xor (∃ n, SaysPort (lookup (e.target.variablePrefix ++ "_PORT")) n)
            (SaysNoPort (lookup (e.target.variablePrefix ++ "_PORT"))))
      ∧ ∀ other : String → Option String,
        (∀ t : Target, lookup (t.variablePrefix ++ "_HOST") = other (t.variablePrefix ++ "_HOST")
          ∧ lookup (t.variablePrefix ++ "_PORT") = other (t.variablePrefix ++ "_PORT")) →
        fromLookup lookup = fromLookup other := by
  have hnames : (Target.all.map Target.name).Nodup := by decide
  refine ⟨rfl, hnames, fun e he => ?_, fun other hsame => ?_⟩
  · rw [mem_endpoints_fromLookup he]
    refine ⟨fun host hfound hvisible => ?_, hostOf_of_blank, fun n => portOf_of_saysPort _,
      portOf_of_saysNoPort _, saysPort_xor_saysNoPort _⟩
    exact (congrArg hostOf hfound).trans (hostOf_of_visible host hvisible)
  · refine eq_of_endpoints (List.map_congr_left fun t _ => ?_)
    rw [endpointFrom, endpointFrom, hostVariable, portVariable, (hsame t).1, (hsame t).2]

/-- Variables some of which are of no use. -/
def crooked (key : String) : Option String :=
  if key = "NOTIFICATION_SERVICE_HOST" then some " \t"
  else if key = "NOTIFICATION_SERVICE_PORT" then some "\u2003+00065535 "
  else if key = "INVENTORY_SERVICE_PORT" then some "65536"
  else if key = "AI_ML_SERVICE_HOST" then some " ml"
  else if key = "AI_ML_SERVICE_PORT" then some "-1"
  else none

/-- White space around a port is passed over, and so are a sign and zeros in front of it. It is not
    passed over in a host, unless there is nothing else. -/
theorem fromLookup_exact_crooked :
    SaysPort (crooked (Target.notification.variablePrefix ++ "_PORT")) 65535
      ∧ SaysNoPort (crooked (Target.inventory.variablePrefix ++ "_PORT"))
      ∧ SaysNoPort (crooked (Target.aiMl.variablePrefix ++ "_PORT"))
      ∧ (fromLookup crooked).endpoints.map Endpoint.host = ["localhost", "localhost", " ml"]
      ∧ (fromLookup crooked).endpoints.map Endpoint.port = [65535, 3002, 3003]
      ∧ fromLookup crooked
        = fromLookup fun key => if key = "INVENTORY_PORT" then some "1" else crooked key := by
  have hnotification :
      SaysPort (crooked (Target.notification.variablePrefix ++ "_PORT")) 65535 := by
    have hspells : Decimal.Spells "00065535".toList 65535 :=
      ⟨by decide, List.all_eq_true.mp (by decide), by decide⟩
    exact ⟨"\u2003+00065535 ", "+00065535".toList, by decide,
      (Text.trimChars_eq_iff _ _).mp (by decide), "00065535".toList, Or.inr rfl, hspells, by decide⟩
  have hinventory : SaysNoPort (crooked (Target.inventory.variablePrefix ++ "_PORT")) := by
    have hspells : Decimal.Spells "65536".toList 65536 :=
      ⟨by decide, List.all_eq_true.mp (by decide), by decide⟩
    have hunfit : Unfit (Text.trimChars "65536".toList) :=
      .large _ "65536".toList 65536 (by decide) hspells (by decide)
    exact saysNoPort_of_unfit hunfit
  have haiMl : SaysNoPort (crooked (Target.aiMl.variablePrefix ++ "_PORT")) := by
    have hunfit : Unfit (Text.trimChars "-1".toList) :=
      .foreign _ '-' (by decide) (by decide) (by decide)
    exact saysNoPort_of_unfit hunfit
  have hlist : (fromLookup crooked).endpoints = [endpointFrom crooked .notification,
      endpointFrom crooked .inventory, endpointFrom crooked .aiMl] := rfl
  rcases fromLookup_exact crooked with ⟨_, _, heach, hsame⟩
  rw [hlist, List.forall_mem_cons, List.forall_mem_cons, List.forall_mem_singleton] at heach
  rcases heach with ⟨⟨_, hblank, hsaid, _⟩, ⟨_, hmissing, _, hlarge, _⟩, ⟨hkept, _, _, hforeign, _⟩⟩
  refine ⟨hnotification, hinventory, haiMl, ?_, ?_, hsame _ fun t => by cases t <;> decide⟩
  · have hblanks : ∀ host, crooked (Target.notification.variablePrefix ++ "_HOST") = some host →
        ∀ c ∈ host.toList, Text.isBlank c = true := fun host hhost => by
      rw [← Option.some.inj hhost]
      exact List.all_eq_true.mp (by decide)
    have hnone : ∀ host, crooked (Target.inventory.variablePrefix ++ "_HOST") = some host →
        ∀ c ∈ host.toList, Text.isBlank c = true := fun host hhost =>
      (Option.some_ne_none host hhost.symm).elim
    rw [hlist, List.map_cons, List.map_cons, List.map_singleton, hblank hblanks, hmissing hnone,
      hkept " ml" (by decide) ⟨'m', by decide, by decide⟩]
  · rw [hlist, List.map_cons, List.map_cons, List.map_singleton, hsaid 65535 hnotification,
      hlarge hinventory, hforeign haiMl]
    rfl

end Registry

end Gateway
