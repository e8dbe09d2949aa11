import Gateway.Proofs.Json.Depth
import Gateway.Proofs.Json.Records
import Gateway.Proofs.Packet.Delivery

/-!
# Packets Are Read Back

A packet that was written comes back as it was, whichever way it is read: straight from its text, or
from the value that the text stands for, or from the value that the packet itself stands for. Fields
that may be missing are treated in three ways. An id is left out of a request that has none, and is
`null` in a reply that has none, and both are read as none. A response is left out when there is
none, and `null` is a response like any other. An error is left out when there is none, and `null`
is read as none as well. So one thing gets lost: a reply whose error is `null` comes back without
an error (`Reply.arrived`).

The packet is one level deeper than what is in it. Texts are therefore read back up to one level
less than the deepest that is read, while values know no such limit.

## Main definitions

* `Reply.arrived`: A reply as it is read.

## Theorems

* `Request.fills_members`, `Reply.fills_members`: The members of a packet, read one after another.
* `Reply.ofValue?_ofMembers`: A reply is read from its members.
* `packets_round_trip`: What comes back of a packet.
-/

namespace Gateway

namespace Request

/-- The members of a request are read one after another. -/
theorem fills_members (p : Request) (h : p.data.Writable 126) :
    record.Fills 126 {} p.members ⟨p.id.map some, some p.pattern, some p.data⟩ := by
  rcases p with ⟨id, pattern, data⟩
  -- The pattern and the data are always there, and behind the id if there is one.
  have hothers : ∀ read : Option (Option String), record.Fills 126 ⟨read, none, none⟩
      [("pattern", .string pattern), ("data", data)] ⟨read, some pattern, some data⟩ := fun read =>
    .cons rfl rfl
      (Json.ofText_of_faithful Json.faithful_text _ ⟨trivial, trivial, Nat.zero_le _⟩ rfl)
      (.cons rfl rfl (Json.ofText_of_faithful Json.faithful_any _ h rfl) (.nil _))
  cases id with
  | none => exact hothers none
  | some id =>
      exact .cons rfl rfl (Json.ofText_of_faithful
        (Json.faithful_optional Json.Kind.text Json.faithful_text) _
        ⟨trivial, trivial, Nat.zero_le _⟩ rfl) (hothers (some (some id)))

/-- A request is read back from its text. -/
theorem ofText_toText (p : Request) (h : p.data.Writable 126) : ofText p.toText = .ok p := by
  have hfills := p.fills_members h
  rcases p with ⟨_ | id, pattern, data⟩
  · exact Json.Record.ofText_written _ _ _ _ hfills rfl
  · exact Json.Record.ofText_written _ _ _ _ hfills rfl

/-- The text of a request stands for a value that the request is read from. -/
theorem exists_parse_toText (p : Request) (h : p.data.Writable 126) :
    ∃ v, Json.parse p.toText = .ok v ∧ ofValue? v = some p := by
  refine ⟨Json.ofMembers p.members, ?_, p.ofValue?_ofMembers⟩
  refine Json.parse_write_members _ (p.wellFormed_members h.wellFormed)
    (p.integral_members h.integral) ?_
  rw [nestingMembers_members, Json.maxNesting]
  exact Nat.lt_succ_of_le h.nesting

end Request

namespace Reply

/-- An error as it is read: `null` is none. -/
def errorRead : Json → Option Json
  | .null => none
  | err => some err

/-- A reply as it is read: an error that is `null` is none. -/
def arrived (q : Reply) : Reply :=
  { q with err := q.err.bind errorRead }

theorem arrived_of_not_null (q : Reply) (h : q.err ≠ some .null) : q.arrived = q := by
  rcases q with ⟨id, response, _ | err, isDisposed⟩
  · rfl
  · cases err with
    | null => exact absurd rfl h
    | bool b | number n | string s | array items | object members => rfl

theorem optionalAny_ofValue? (err : Json) :
    Json.Kind.optionalAny.ofValue? err = some (errorRead err) := by
  cases err <;> rfl

theorem writable_id (id : Option String) (depth : Nat) :
    ((id.map Json.string).getD .null).Writable depth := by
  cases id <;> exact ⟨trivial, trivial, Nat.zero_le _⟩

/-- The members of a reply are read one after another. -/
theorem fills_members (q : Reply) (hresponse : ∀ v ∈ q.response, v.Writable 126)
    (herr : ∀ v ∈ q.err, v.Writable 126) :
    record.Fills 126 {} q.members
      ⟨some q.id, q.response.map some, q.err.map errorRead, some q.isDisposed⟩ := by
  rcases q with ⟨id, response, err, isDisposed⟩
  -- From the back: the mark is always there, and before it what the reply has.
  have hmark : ∀ (read : Option (Option Json)) (failed : Option (Option Json)),
      record.Fills 126 ⟨some id, read, failed, none⟩ [("isDisposed", .bool isDisposed)]
        ⟨some id, read, failed, some isDisposed⟩ := fun read failed =>
    .cons rfl rfl (Json.ofText_of_faithful Json.faithful_flag _
      ⟨trivial, trivial, Nat.zero_le _⟩ rfl) (.nil _)
  have herror : ∀ read : Option (Option Json), record.Fills 126 ⟨some id, read, none, none⟩
      ((err.map fun v => ("err", v)).toList ++ [("isDisposed", .bool isDisposed)])
      ⟨some id, read, err.map errorRead, some isDisposed⟩ := by
    intro read
    cases err with
    | none => exact hmark read none
    | some err =>
        exact .cons rfl rfl (Json.ofText_of_faithful
          (Json.faithful_optional Json.Kind.any Json.faithful_any) _ (herr err rfl)
          (optionalAny_ofValue? err)) (hmark read _)
  have hothers : record.Fills 126 ⟨some id, none, none, none⟩
      ((response.map fun v => ("response", v)).toList
        ++ ((err.map fun v => ("err", v)).toList ++ [("isDisposed", .bool isDisposed)]))
      ⟨some id, response.map some, err.map errorRead, some isDisposed⟩ := by
    cases response with
    | none => exact herror none
    | some response =>
        exact .cons rfl rfl (Json.ofText_of_faithful Json.faithful_present _
          (hresponse response rfl) rfl) (herror _)
  have hid : Json.Kind.optionalText.ofValue? ((id.map Json.string).getD .null) = some id := by
    cases id <;> rfl
  simp only [members, List.append_assoc, List.singleton_append]
  exact .cons rfl rfl (Json.ofText_of_faithful
    (Json.faithful_optional Json.Kind.text Json.faithful_text) _ (writable_id id 126) hid) hothers

/-- A reply is read back from its text, with an error that is `null` read as none. -/
theorem ofText_toText (q : Reply) (hresponse : ∀ v ∈ q.response, v.Writable 126)
    (herr : ∀ v ∈ q.err, v.Writable 126) : ofText q.toText = .ok q.arrived := by
  have hfills := q.fills_members hresponse herr
  rcases q with ⟨id, _ | response, _ | err, isDisposed⟩ <;>
    exact Json.Record.ofText_written _ _ _ _ hfills rfl

theorem ofMembers_members (q : Reply) :
    Json.ofMembers q.members
      = .object ((q.err.map fun v => ("err", v)).toList
        ++ [("id", (q.id.map Json.string).getD .null), ("isDisposed", .bool q.isDisposed)]
        ++ (q.response.map fun v => ("response", v)).toList) := by
  have herrid : "err" < "id" := by decide
  have hdisposedid : ¬ "isDisposed" < "id" := by decide
  have hdisposedresponse : "isDisposed" < "response" := by decide
  have hresponseid : ¬ "response" < "id" := by decide
  have hdisposederr : ¬ "isDisposed" < "err" := by decide
  rcases q with ⟨id, _ | response, _ | err, isDisposed⟩ <;>
    simp [Json.ofMembers, members, Json.insert, herrid, hdisposedid,
      hdisposedresponse, hresponseid, hdisposederr]

/-- A reply is read from its members, which are sorted by then. -/
theorem ofValue?_ofMembers (q : Reply) : ofValue? (Json.ofMembers q.members) = some q.arrived := by
  rw [ofMembers_members]
  rcases q with ⟨id, response, err, isDisposed⟩
  cases err with
  | none => cases id <;> cases response <;> rfl
  | some err => cases err <;> cases id <;> cases response <;> rfl

theorem writable_of_mem_members (q : Reply) (hresponse : ∀ v ∈ q.response, v.Writable 126)
    (herr : ∀ v ∈ q.err, v.Writable 126) : ∀ m ∈ q.members, m.2.Writable 126 := by
  intro m hm
  simp only [members, List.mem_append, List.mem_singleton, Option.mem_toList,
    Option.map_eq_some_iff] at hm
  rcases hm with ((rfl | ⟨v, hv, rfl⟩) | ⟨v, hv, rfl⟩) | rfl
  · exact writable_id q.id 126
  · exact hresponse v hv
  · exact herr v hv
  · exact ⟨trivial, trivial, Nat.zero_le _⟩

/-- The text of a reply stands for a value that the reply is read from. -/
theorem exists_parse_toText (q : Reply) (hresponse : ∀ v ∈ q.response, v.Writable 126)
    (herr : ∀ v ∈ q.err, v.Writable 126) :
    ∃ v, Json.parse q.toText = .ok v ∧ ofValue? v = some q.arrived := by
  rcases Json.writable_members 126 q.members (q.writable_of_mem_members hresponse herr) with
    ⟨hwell, hint, hnesting⟩
  exact ⟨Json.ofMembers q.members,
    Json.parse_write_members _ hwell hint (Nat.lt_succ_of_le hnesting), q.ofValue?_ofMembers⟩

end Reply

/-- A request comes back as it was from the value that it stands for, and, unless its data is nested
    too deep, from its text, read straight or by way of a value. A reply comes back in the same ways
    with the same id, response and mark. A response that is absent stays absent, and one that is
    `null` stays `null`. An error that is `null` is lost, and any other error stays, and with it
    whether the reply is final and what it says. -/
theorem packets_round_trip (p : Request) (q : Reply) :
    Request.ofValue? (Json.ofMembers p.members) = some p
      ∧ (p.data.Writable 126 →
        Request.ofText p.toText = .ok p
          ∧ (∃ v, Json.parse p.toText = .ok v ∧ Request.ofValue? v = some p)
          ∧ (Request.ofText p.toText).map Request.isEvent = .ok p.isEvent)
      ∧ Reply.ofValue? (Json.ofMembers q.members) = some q.arrived
      ∧ ((∀ v ∈ q.response, v.Writable 126) → (∀ v ∈ q.err, v.Writable 126) →
        Reply.ofText q.toText = .ok q.arrived
          ∧ (∃ v, Json.parse q.toText = .ok v ∧ Reply.ofValue? v = some q.arrived)
          ∧ (q.err ≠ some .null →
            (Reply.ofText q.toText).map Reply.isFinal = .ok q.isFinal
            ∧ (Reply.ofText q.toText).map Reply.errorMessage? = .ok q.errorMessage?))
      ∧ q.arrived.id = q.id ∧ q.arrived.response = q.response
      ∧ q.arrived.isDisposed = q.isDisposed
      ∧ (q.err = some .null → q.arrived.err = none) ∧ (q.err ≠ some .null → q.arrived = q) := by
  refine ⟨p.ofValue?_ofMembers, fun hdata => ?_, q.ofValue?_ofMembers, fun hresponse herr => ?_,
    rfl, rfl, rfl, fun hnull => ?_, q.arrived_of_not_null⟩
  · rw [p.ofText_toText hdata]
    exact ⟨rfl, p.exists_parse_toText hdata, rfl⟩
  · rw [q.ofText_toText hresponse herr]
    refine ⟨rfl, q.exists_parse_toText hresponse herr, fun hnot => ?_⟩
    rw [q.arrived_of_not_null hnot]
    exact ⟨rfl, rfl⟩
  · rw [Reply.arrived, hnull]
    rfl

/-- An event with an array of a number below zero, and a reply whose response and error are both
    `null`. -/
theorem packets_round_trip_nulls :
    Request.ofText (Request.event "moved" (.array [.number (.integer (-7) (by decide))])).toText
        = .ok (.event "moved" (.array [.number (.integer (-7) (by decide))]))
      ∧ Reply.ofText (Reply.toText ⟨some "1", some .null, some .null, false⟩)
        = .ok ⟨some "1", some .null, none, false⟩ := by
  have hdata : (Json.array [.number (.integer (-7) (by decide))]).Writable 126 :=
    ⟨⟨trivial, trivial⟩, ⟨trivial, trivial⟩, by decide⟩
  have hnull : ∀ v ∈ some Json.null, v.Writable 126 := fun v hv =>
    Option.some.inj hv ▸ ⟨trivial, trivial, Nat.zero_le _⟩
  rcases packets_round_trip (.event "moved" (.array [.number (.integer (-7) (by decide))]))
    ⟨some "1", some .null, some .null, false⟩ with ⟨_, hrequest, _, hreply, _⟩
  exact ⟨(hrequest hdata).1, (hreply hnull hnull).1⟩

end Gateway
