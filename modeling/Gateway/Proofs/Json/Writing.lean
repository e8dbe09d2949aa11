import Gateway.Json.Writer

/-!
# The Text of a Value, Front to Back

Texts are built back to front, and facts on texts go front to back. The two are tied together here:
writing only puts octets before those that are there (`writeOnto_append`), so the text of an array
is made up of the texts of its items, and that of an object of those of its members.

The first item is written without a comma and each of the others with one, and readers go the same
way: they read an item, and a comma before they read another. Hence the texts of all items but the
first are taken together in `writeRest`.

## Main definitions

* `writeRest`: The texts of the items after the first.
* `writeMember`, `writeRestMembers`: The text of a member, and those of the members after the first.

## Theorems

* `writeOnto_append`: Writing leaves alone what is there.
* `write_array`, `write_object`: The text of a value made up of others.
-/

namespace Gateway

namespace Json

/-- The texts of the items after the first, with a comma before each. -/
def writeRest (items : List Json) : Bytes :=
  items.flatMap fun v => ascii ',' :: v.write

/-- The text of a member. -/
def writeMember (m : String × Json) : Bytes :=
  writeString m.1 ++ ascii ':' :: m.2.write

/-- The texts of the members after the first, with a comma before each. -/
def writeRestMembers (members : List (String × Json)) : Bytes :=
  members.flatMap fun m => ascii ',' :: writeMember m

mutual

/-- Writing leaves alone what is there. -/
theorem writeOnto_append : ∀ (v : Json) (acc more : Bytes),
    writeOnto v (acc ++ more) = writeOnto v acc ++ more
  | .null, acc, more => by
      simp only [writeOnto, List.reverseAux_eq, List.append_assoc]
  | .bool true, acc, more => by
      simp only [writeOnto, List.reverseAux_eq, List.append_assoc]
  | .bool false, acc, more => by
      simp only [writeOnto, List.reverseAux_eq, List.append_assoc]
  | .number n, acc, more => by
      simp only [writeOnto, List.reverseAux_eq, List.append_assoc]
  | .string s, acc, more => by
      simp only [writeOnto, List.reverseAux_eq, List.append_assoc]
  | .array items, acc, more => by
      have hitems := writeItemsOnto_append items true (ascii '[' :: acc) more
      rw [writeOnto, writeOnto, List.cons_append, ← hitems, List.cons_append]
  | .object members, acc, more => by
      have hmembers := writeMembersOnto_append members true (ascii '{' :: acc) more
      rw [writeOnto, writeOnto, List.cons_append, ← hmembers, List.cons_append]

theorem writeItemsOnto_append : ∀ (items : List Json) (first : Bool) (acc more : Bytes),
    writeItemsOnto first items (acc ++ more) = writeItemsOnto first items acc ++ more
  | [], first, acc, more => by
      rw [writeItemsOnto, writeItemsOnto]
  | v :: rest, first, acc, more => by
      have hv := writeOnto_append v (if first then acc else ascii ',' :: acc) more
      have hrest := writeItemsOnto_append rest false
        (writeOnto v (if first then acc else ascii ',' :: acc)) more
      rw [writeItemsOnto, writeItemsOnto, ← hrest, ← hv]
      -- With a comma or without, what is there stays behind it.
      cases first <;> rfl

theorem writeMembersOnto_append : ∀ (members : List (String × Json)) (first : Bool)
    (acc more : Bytes),
    writeMembersOnto first members (acc ++ more) = writeMembersOnto first members acc ++ more
  | [], first, acc, more => by
      rw [writeMembersOnto, writeMembersOnto]
  | (k, v) :: rest, first, acc, more => by
      have hv := writeOnto_append v
        (ascii ':' :: (writeString k).reverseAux (if first then acc else ascii ',' :: acc)) more
      have hrest := writeMembersOnto_append rest false (writeOnto v
        (ascii ':' :: (writeString k).reverseAux (if first then acc else ascii ',' :: acc))) more
      rw [writeMembersOnto, writeMembersOnto, ← hrest, ← hv]
      simp only [List.reverseAux_eq, List.cons_append, List.append_assoc]
      cases first <;> rfl

end

theorem writeOnto_eq (v : Json) (acc : Bytes) : writeOnto v acc = v.write.reverse ++ acc := by
  rw [write, List.reverse_reverse, ← writeOnto_append, List.nil_append]

theorem writeItemsOnto_rest (items : List Json) (acc : Bytes) :
    writeItemsOnto false items acc = (writeRest items).reverse ++ acc := by
  induction items generalizing acc with
  | nil => rfl
  | cons v rest ih =>
      rw [writeItemsOnto, ih, writeOnto_eq, writeRest, writeRest, List.flatMap_cons]
      simp only [Bool.false_eq_true, if_false, List.reverse_append, List.reverse_cons,
        List.append_assoc, List.singleton_append]

/-- The text of an array with items. -/
theorem write_array (v : Json) (rest : List Json) :
    (array (v :: rest)).write = ascii '[' :: (v.write ++ (writeRest rest ++ [ascii ']'])) := by
  rw [write, writeOnto, writeItemsOnto, writeItemsOnto_rest, writeOnto_eq]
  simp only [if_true, List.reverse_cons, List.reverse_append, List.reverse_reverse,
    List.append_assoc, List.reverse_nil, List.nil_append, List.cons_append]

theorem writeMembersOnto_rest (members : List (String × Json)) (acc : Bytes) :
    writeMembersOnto false members acc = (writeRestMembers members).reverse ++ acc := by
  induction members generalizing acc with
  | nil => rfl
  | cons m rest ih =>
      rw [writeMembersOnto, ih, writeOnto_eq, writeRestMembers, writeRestMembers,
        List.flatMap_cons, writeMember]
      simp only [Bool.false_eq_true, if_false, List.reverseAux_eq, List.reverse_append,
        List.reverse_cons, List.append_assoc, List.cons_append, List.nil_append]

/-- The text of an object with members. -/
theorem write_object (m : String × Json) (rest : List (String × Json)) :
    (object (m :: rest)).write
      = ascii '{' :: (writeMember m ++ (writeRestMembers rest ++ [ascii '}'])) := by
  rw [write, writeOnto, writeMembersOnto, writeMembersOnto_rest, writeOnto_eq, writeMember]
  simp only [if_true, List.reverseAux_eq, List.reverse_cons, List.reverse_append,
    List.reverse_reverse, List.append_assoc, List.reverse_nil, List.nil_append, List.cons_append]

theorem write_number (n : Number) : (number n).write = writeNumber n := by
  rw [write, writeOnto, List.reverseAux_eq, List.append_nil, List.reverse_reverse]

theorem write_string (s : String) : (string s).write = writeString s := by
  rw [write, writeOnto, List.reverseAux_eq, List.append_nil, List.reverse_reverse]

end Json

end Gateway
