import Gateway.Packet
import Gateway.Proofs.Json.Agreement
import Gateway.Proofs.Json.Depth

/-!
# Two Ways of Reading a Packet

A backend's reply is read from a value that the decoder of frames has made of a text, and packets
are read from text as well. Which way is taken should not show. The fields of both packets have
kinds that agree and places of their own in the draft, so the packets are read alike, whatever
their members are, in which order they stand, and whether they stand in an object or in an array.

## Theorems

* `Request.consistent`, `Reply.consistent`: The fields of the packets agree and keep to themselves.
* `packets_read_alike`: Both ways refuse a text, or both give the same packet.
-/

namespace Gateway

open Json

/-- The fields of a request agree and keep to themselves. -/
theorem Request.consistent : Request.record.Consistent where
  fresh hf := by
    simp only [record, List.mem_cons, List.not_mem_nil, or_false] at hf
    rcases hf with rfl | rfl | rfl
    all_goals rfl
  sets hf h := by
    simp only [record, List.mem_cons, List.not_mem_nil, or_false] at hf
    rcases hf with rfl | rfl | rfl
    all_goals exact RecordField.isSet_of h fun _ _ => rfl
  apart := by
    simp only [record, List.pairwise_cons, List.mem_cons, List.not_mem_nil, or_false,
      forall_eq_or_imp, forall_eq, false_imp_iff, implies_true, List.Pairwise.nil, and_true]
    refine ⟨⟨?_, ?_⟩, ?_⟩
    all_goals exact RecordField.apart_of (fun _ _ _ => rfl) (fun _ _ => rfl) fun _ _ => rfl
  agrees hf := by
    simp only [record, List.mem_cons, List.not_mem_nil, or_false] at hf
    rcases hf with rfl | rfl | rfl
    · exact RecordField.agrees_of Kind.agrees_text.optional
    · exact RecordField.agrees_of Kind.agrees_text
    · exact RecordField.agrees_of Kind.agrees_any

/-- The fields of a reply agree and keep to themselves. -/
theorem Reply.consistent : Reply.record.Consistent where
  fresh hf := by
    simp only [record, List.mem_cons, List.not_mem_nil, or_false] at hf
    rcases hf with rfl | rfl | rfl | rfl
    all_goals rfl
  sets hf h := by
    simp only [record, List.mem_cons, List.not_mem_nil, or_false] at hf
    rcases hf with rfl | rfl | rfl | rfl
    all_goals exact RecordField.isSet_of h fun _ _ => rfl
  apart := by
    simp only [record, List.pairwise_cons, List.mem_cons, List.not_mem_nil, or_false,
      forall_eq_or_imp, forall_eq, false_imp_iff, implies_true, List.Pairwise.nil, and_true]
    refine ⟨⟨?_, ?_, ?_⟩, ⟨?_, ?_⟩, ?_⟩
    all_goals exact RecordField.apart_of (fun _ _ _ => rfl) (fun _ _ => rfl) fun _ _ => rfl
  agrees hf := by
    simp only [record, List.mem_cons, List.not_mem_nil, or_false] at hf
    rcases hf with rfl | rfl | rfl | rfl
    · exact RecordField.agrees_of Kind.agrees_text.optional
    · exact RecordField.agrees_of Kind.agrees_present
    · exact RecordField.agrees_of Kind.agrees_any.optional
    · exact RecordField.agrees_of Kind.agrees_flag

/-- Where a text stands for a value and repeats no field of a packet, it is read as the packet that
    is taken from the value, and refused if none is. This is so for requests and for replies, for
    objects with members in any order and for arrays of any length. A text that repeats a field is
    refused, and the value does not tell that it did. -/
theorem packets_read_alike (bs : Bytes) (v : Json) (h : Json.parse bs = .ok v) :
    ((∀ name ∈ ["id", "pattern", "data"], (Json.keys bs).count name ≤ 1) →
        (Request.ofText bs).toOption = Request.ofValue? v)
      ∧ ((∃ name ∈ ["id", "pattern", "data"], 1 < (Json.keys bs).count name) →
        (Request.ofText bs).toOption = none)
      ∧ ((∀ name ∈ ["id", "response", "err", "isDisposed"], (Json.keys bs).count name ≤ 1) →
        (Reply.ofText bs).toOption = Reply.ofValue? v)
      ∧ ((∃ name ∈ ["id", "response", "err", "isDisposed"], 1 < (Json.keys bs).count name) →
        (Reply.ofText bs).toOption = none) := by
  -- The names are those of the fields of the two records.
  have hrequest : ["id", "pattern", "data"] = Request.record.fields.map RecordField.name := rfl
  have hreply : ["id", "response", "err", "isDisposed"]
    = Reply.record.fields.map RecordField.name := rfl
  rw [hrequest, hreply]
  refine ⟨fun hcount => ?_, fun hrepeated => ?_, fun hcount => ?_, fun hrepeated => ?_⟩
  · exact Record.ofText_eq_ofValue? Request.consistent h fun f hf =>
      hcount f.name (List.mem_map_of_mem hf)
  · rcases hrepeated with ⟨name, hname, hcount⟩
    rcases List.mem_map.mp hname with ⟨f, hf, rfl⟩
    exact Record.ofText_of_repeated Request.consistent h hf hcount
  · exact Record.ofText_eq_ofValue? Reply.consistent h fun f hf =>
      hcount f.name (List.mem_map_of_mem hf)
  · rcases hrepeated with ⟨name, hname, hcount⟩
    rcases List.mem_map.mp hname with ⟨f, hf, rfl⟩
    exact Record.ofText_of_repeated Reply.consistent h hf hcount

/-- An array that ends before its last field, and an object with its fields in another order and a
    member that is no field before and behind them. -/
theorem packets_read_alike_shuffled :
    (Request.ofText (Json.array [.string "1", .string "p"]).write).toOption
        = some ⟨some "1", "p", .null⟩
      ∧ (Reply.ofText (Json.object [("x", .bool true), ("err", .array []), ("id", .string "1"),
          ("x", .object [])]).write).toOption
        = some ⟨some "1", none, some (.array []), false⟩ := by
  have harray := Json.parse_write (.array [.string "1", .string "p"]) (by decide)
    ⟨trivial, trivial, trivial⟩ ⟨trivial, trivial, trivial⟩
  have hobject := Json.parse_write_members [("x", .bool true), ("err", .array []),
    ("id", .string "1"), ("x", .object [])]
    ⟨trivial, trivial, trivial, ⟨List.Pairwise.nil, trivial⟩, trivial⟩
    ⟨trivial, trivial, trivial, trivial, trivial⟩ (by decide)
  exact ⟨(packets_read_alike _ _ harray).1 (by decide +kernel),
    (packets_read_alike _ _ hobject).2.2.1 (by decide +kernel)⟩

end Gateway
