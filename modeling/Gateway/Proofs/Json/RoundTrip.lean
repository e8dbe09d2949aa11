import Gateway.Proofs.Json.Numbers
import Gateway.Proofs.Json.Reading
import Gateway.Proofs.Json.Strings
import Gateway.Proofs.Json.Writing

/-!
# Values Are Read Back

What is written is what is read: the text of a value, whatever stands behind it, is read as that
value, and what stands behind it is left. This is `ReadsBack`, and it is what the induction over
values needs of the items of an array and of the members of an object, which are read from the
middle of a longer text.

Three things have to be asked of a value. Its numbers have to be integers, since a fraction is
rounded when it is read and need not come out as the one that was written. Its nesting has to stay
within the depth that is left. And the members of its objects have to be sorted by key: only then
does reading them one after another put each of them behind the others. Sorted they are in every
value that was itself read, and so such a value needs to have no fractions and nothing else
(`parse_write_of_parse`).

The fuel of the reader is measured by the text. An item takes at least one octet and so does a
bracket, which is where the factor of two comes from.

## Main definitions

* `ReadsBack`: The text of a value is read as that value.

## Theorems

* `insert_of_last`: A member with the largest key goes last.
* `readItems_written`, `readMembers_written`: Items and members are read one after another.
* `readValue_members`: The text of some members is read as the object with these members.
* `readsBack_of_wellFormed`: Every well-formed value without fractions is read back.
* `parse_write`: A whole text is read as the value it was written for.
* `parse_write_of_parse`: What was read once is read again from its own text.
-/

namespace Gateway

namespace Json

/-- The text of a value is read as that value, and what stands behind it is left, if the brackets
    that may be opened suffice and the fuel does. -/
def ReadsBack (v : Json) : Prop :=
  ∀ (fuel depth : Nat) (rest : Bytes), v.nesting ≤ depth → 2 * v.write.length ≤ fuel →
    EndsNumber rest → readValue fuel depth (v.write ++ rest) = .ok (v, rest)

/-! ## What Stands Behind a Value -/

theorem skipBlanks_cons (b : UInt8) (bs : Bytes) (h : isBlank b = false) :
    skipBlanks (b :: bs) = b :: bs := by
  rw [skipBlanks, List.dropWhile_cons_of_neg (by rw [h]; exact Bool.false_ne_true)]

theorem endsNumber_nil : EndsNumber [] := fun b hb =>
  absurd hb (Option.not_mem_none b)

theorem endsNumber_cons (b : UInt8) (rest : Bytes)
    (h : b = ascii ',' ∨ b = ascii ']' ∨ b = ascii '}') : EndsNumber (b :: rest) := by
  intro c hc
  rw [List.head?_cons, Option.mem_some_iff] at hc
  rw [← hc]
  rcases h with rfl | rfl | rfl <;> decide

/-! ## What a Value Begins With -/

theorem not_beq_of_startsNumber (b : UInt8) (c : Char) (h : startsNumber b = true)
    (hc : startsNumber (ascii c) = false) : ¬ (b == ascii c) = true := by
  rw [beq_iff_eq]
  intro hsame
  rw [← hsame, h] at hc
  exact Bool.noConfusion hc

theorem isBlank_of_startsNumber (b : UInt8) (h : startsNumber b = true) : isBlank b = false := by
  cases hblank : isBlank b with
  | false => rfl
  | true =>
      simp only [isBlank, Bool.or_eq_true, beq_iff_eq] at hblank
      rcases hblank with ((rfl | rfl) | rfl) | rfl <;> exact absurd h (by decide)

/-- No value begins with a blank, nor with what closes an array. -/
theorem write_eq_cons (v : Json) (h : v.Integral) :
    ∃ b bs, v.write = b :: bs ∧ isBlank b = false ∧ ¬ (b == ascii ']') = true := by
  cases v with
  | null => exact ⟨ascii 'n', utf8 "ull", rfl, rfl, by decide⟩
  | bool b =>
      cases b with
      | true => exact ⟨ascii 't', utf8 "rue", rfl, rfl, by decide⟩
      | false => exact ⟨ascii 'f', utf8 "alse", rfl, rfl, by decide⟩
  | number n =>
      cases n with
      | integer n fits =>
          rcases writeInt_eq_cons n with ⟨b, bs, hwrite, hstarts⟩
          refine ⟨b, bs, ?_, isBlank_of_startsNumber b hstarts,
            not_beq_of_startsNumber b ']' hstarts rfl⟩
          rw [write_number, writeNumber, hwrite]
      | fraction x => exact absurd h not_false
  | string s => exact ⟨ascii '"', _, write_string s, rfl, by decide⟩
  | array items =>
      cases items with
      | nil => exact ⟨ascii '[', [ascii ']'], rfl, rfl, by decide⟩
      | cons v rest => exact ⟨ascii '[', _, write_array v rest, rfl, by decide⟩
  | object members =>
      cases members with
      | nil => exact ⟨ascii '{', [ascii '}'], rfl, rfl, by decide⟩
      | cons m rest => exact ⟨ascii '{', _, write_object m rest, rfl, by decide⟩

/-- No text is empty, so there always is fuel to begin with. -/
theorem readsBack_of_succ (v : Json) (hv : v.Integral)
    (h : ∀ (fuel depth : Nat) (rest : Bytes), v.nesting ≤ depth → 2 * v.write.length ≤ fuel + 1 →
      EndsNumber rest → readValue (fuel + 1) depth (v.write ++ rest) = .ok (v, rest)) :
    ReadsBack v := by
  intro fuel depth rest hdepth hfuel hrest
  rcases write_eq_cons v hv with ⟨b, bs, hwrite, _⟩
  cases fuel with
  | zero =>
      rw [hwrite, List.length_cons] at hfuel
      omega
  | succ fuel => exact h fuel depth rest hdepth hfuel hrest

/-! ## Scalars -/

theorem expect_append (octets rest : Bytes) : expect octets (octets ++ rest) = .ok rest := by
  induction octets with
  | nil => rw [expect.eq_def]; rfl
  | cons b bs ih => rw [List.cons_append, expect, if_pos (beq_self_eq_true b), ih]

theorem readsBack_null : ReadsBack null := by
  refine readsBack_of_succ null trivial fun fuel depth rest _ _ _ => ?_
  have hword := expect_append (utf8 "ull") rest
  calc readValue (fuel + 1) depth (null.write ++ rest)
      = (expect (utf8 "ull") (utf8 "ull" ++ rest)).map (null, ·) := rfl
    _ = .ok (null, rest) := by rw [hword]; rfl

theorem readsBack_bool (b : Bool) : ReadsBack (bool b) := by
  refine readsBack_of_succ (bool b) trivial fun fuel depth rest _ _ _ => ?_
  cases b with
  | true =>
      have hword := expect_append (utf8 "rue") rest
      calc readValue (fuel + 1) depth ((bool true).write ++ rest)
          = (expect (utf8 "rue") (utf8 "rue" ++ rest)).map (bool true, ·) := rfl
        _ = .ok (bool true, rest) := by rw [hword]; rfl
  | false =>
      have hword := expect_append (utf8 "alse") rest
      calc readValue (fuel + 1) depth ((bool false).write ++ rest)
          = (expect (utf8 "alse") (utf8 "alse" ++ rest)).map (bool false, ·) := rfl
        _ = .ok (bool false, rest) := by rw [hword]; rfl

theorem readValue_string (fuel depth : Nat) (bs : Bytes) :
    readValue (fuel + 1) depth (ascii '"' :: bs)
      = match readString bs with
        | .error e => .error e
        | .ok (s, bs) => .ok (.string s, bs) :=
  rfl

theorem readsBack_string (s : String) : ReadsBack (string s) := by
  refine readsBack_of_succ (string s) trivial fun fuel depth rest _ _ _ => ?_
  rw [write_string, writeString_append, readValue_string, readString_written]

theorem readValue_number (fuel depth : Nat) (b : UInt8) (bs rest : Bytes) (n : Number)
    (h : startsNumber b = true) (hread : readNumber (b :: bs) = .ok (n, rest)) :
    readValue (fuel + 1) depth (b :: bs) = .ok (number n, rest) := by
  rw [readValue, skipBlanks_cons b bs (isBlank_of_startsNumber b h)]
  simp only [if_neg (not_beq_of_startsNumber b 'n' h rfl),
    if_neg (not_beq_of_startsNumber b 't' h rfl), if_neg (not_beq_of_startsNumber b 'f' h rfl),
    if_neg (not_beq_of_startsNumber b '"' h rfl), if_pos h, hread]

theorem readsBack_integer (n : Int)
    (fits : -0x8000000000000000 ≤ n ∧ n < 0x10000000000000000) :
    ReadsBack (number (.integer n fits)) := by
  refine readsBack_of_succ _ trivial fun fuel depth rest _ _ hrest => ?_
  have hread := readNumber_writeInt n fits rest hrest
  rcases writeInt_eq_cons n with ⟨b, bs, hwrite, hstarts⟩
  rw [hwrite, List.cons_append] at hread
  rw [write_number, writeNumber, hwrite, List.cons_append]
  exact readValue_number fuel depth b _ rest _ hstarts hread

/-! ## Arrays -/

theorem readItems_last (fuel depth : Nat) (acc : List Json) (bs rest : Bytes) (v : Json)
    (h : readValue fuel depth bs = .ok (v, ascii ']' :: rest)) :
    readItems (fuel + 1) depth acc bs = .ok (.array (acc.reverse ++ [v]), rest) := by
  rw [readItems, h, ← List.reverse_cons]
  rfl

theorem readItems_more (fuel depth : Nat) (acc : List Json) (bs rest : Bytes) (v : Json)
    (h : readValue fuel depth bs = .ok (v, ascii ',' :: rest)) :
    readItems (fuel + 1) depth acc bs = readItems fuel depth (v :: acc) rest := by
  rw [readItems, h]
  rfl

/-- Items are read one after another. -/
theorem readItems_written (items : List Json) (v : Json) (fuel depth : Nat) (acc : List Json)
    (rest : Bytes) (hread : ∀ w ∈ v :: items, ReadsBack w)
    (hdepth : nestingItems (v :: items) ≤ depth)
    (hfuel : 2 * (v.write ++ writeRest items).length < fuel) :
    readItems fuel depth acc (v.write ++ (writeRest items ++ ascii ']' :: rest))
      = .ok (.array (acc.reverse ++ v :: items), rest) := by
  induction items generalizing v fuel acc with
  | nil =>
      simp only [writeRest, List.flatMap_nil, List.append_nil, List.nil_append, nestingItems] at *
      -- Behind the last item stands the bracket that closes the array.
      cases fuel with
      | zero => omega
      | succ fuel =>
          exact readItems_last fuel depth acc _ rest v (hread v List.mem_cons_self fuel depth _
            (by omega) (by omega) (endsNumber_cons _ rest (Or.inr (Or.inl rfl))))
  | cons w items ih =>
      have hsplit : writeRest (w :: items) = ascii ',' :: (w.write ++ writeRest items) := rfl
      rw [nestingItems] at hdepth
      rw [hsplit] at hfuel ⊢
      simp only [List.length_append, List.length_cons] at hfuel ih
      rw [List.cons_append, List.append_assoc]
      -- Behind any other item stands a comma, whose octet pays for the next round.
      cases fuel with
      | zero => omega
      | succ fuel =>
          have hv := hread v List.mem_cons_self fuel depth
            (ascii ',' :: (w.write ++ (writeRest items ++ ascii ']' :: rest))) (by omega) (by omega)
            (endsNumber_cons _ _ (Or.inl rfl))
          rw [readItems_more fuel depth acc _ _ v hv,
            ih w fuel (v :: acc) (fun u hu => hread u (List.mem_cons_of_mem v hu)) (by omega)
              (by omega),
            List.reverse_cons, List.append_assoc, List.singleton_append]

theorem readValue_array (fuel depth : Nat) (bs : Bytes) (b : UInt8) (hblank : isBlank b = false)
    (hclose : ¬ (b == ascii ']') = true) :
    readValue (fuel + 1) (depth + 1) (ascii '[' :: b :: bs)
      = readItems fuel depth [] (b :: bs) := by
  have hbracket : skipBlanks (ascii '[' :: b :: bs) = ascii '[' :: b :: bs := rfl
  rw [readValue, hbracket]
  dsimp only
  -- None of the octets that are looked for before is a bracket.
  rw [if_neg (by decide), if_neg (by decide), if_neg (by decide), if_neg (by decide),
    if_neg (by decide), if_pos (by decide)]
  simp only [skipBlanks_cons b bs hblank, if_neg hclose]

theorem readsBack_array (items : List Json) (hread : ∀ v ∈ items, ReadsBack v)
    (hitems : IntegralItems items) : ReadsBack (array items) := by
  refine readsBack_of_succ (array items) hitems fun fuel depth rest hdepth hfuel _ => ?_
  rw [nesting] at hdepth
  obtain ⟨depth, rfl⟩ : ∃ n, depth = n + 1 := ⟨depth - 1, by omega⟩
  -- An empty array is closed at once, and any other has an item to begin with.
  cases items with
  | nil => rfl
  | cons v items =>
      rcases write_eq_cons v hitems.1 with ⟨b, bs, hwrite, hblank, hclose⟩
      have hlist := readItems_written items v fuel depth [] rest hread (by omega) (by
        simp only [write_array, List.length_cons, List.length_append, List.length_nil] at hfuel ⊢
        omega)
      rw [write_array, List.cons_append, List.append_assoc, List.append_assoc,
        List.singleton_append]
      rw [hwrite, List.cons_append] at hlist ⊢
      rw [readValue_array fuel depth _ b hblank hclose, hlist]
      rfl

/-! ## Objects -/

/-- A member with the largest key goes last. -/
theorem insert_of_last (key : String) (v : Json) (members : List (String × Json))
    (h : ∀ m ∈ members, m.1 < key) : insert key v members = members ++ [(key, v)] := by
  induction members with
  | nil => rfl
  | cons m members ih =>
      have hless := h m List.mem_cons_self
      have hnot : ¬ key < m.1 := fun hc => String.lt_asymm hless hc
      have hne : key ≠ m.1 := fun hc => by
        rw [hc] at hless
        exact String.lt_irrefl m.1 hless
      rw [insert, if_neg hnot, if_neg hne, ih fun m hm => h m (List.mem_cons_of_mem _ hm),
        List.cons_append]

/-- A key is read, and the value that it stands for. What stands behind them decides whether
    there are more. -/
theorem readMembers_member (fuel depth : Nat) (acc : List (String × Json)) (key : String)
    (bs rest : Bytes) (v : Json) (c : UInt8) (h : readValue fuel depth bs = .ok (v, c :: rest))
    (hblank : isBlank c = false) :
    readMembers (fuel + 1) depth acc (writeString key ++ ascii ':' :: bs)
      = if c == ascii '}' then .ok (.object (insert key v acc), rest)
        else if c == ascii ',' then readMembers fuel depth (insert key v acc) rest
        else .error .malformed := by
  have hkey := readString_written key (ascii ':' :: bs)
  have hquote : skipBlanks (ascii '"'
      :: (key.toList.flatMap escapeChar ++ ascii '"' :: ascii ':' :: bs))
      = ascii '"' :: (key.toList.flatMap escapeChar ++ ascii '"' :: ascii ':' :: bs) := rfl
  have hcolon : readColon (ascii ':' :: bs) = .ok bs := rfl
  rw [writeString_append, readMembers, hquote]
  simp only [bne_self_eq_false, Bool.false_eq_true, if_false, hkey, hcolon, h,
    skipBlanks_cons c rest hblank]

theorem readMembers_last (fuel depth : Nat) (acc : List (String × Json)) (key : String)
    (bs rest : Bytes) (v : Json) (h : readValue fuel depth bs = .ok (v, ascii '}' :: rest)) :
    readMembers (fuel + 1) depth acc (writeString key ++ ascii ':' :: bs)
      = .ok (.object (insert key v acc), rest) :=
  readMembers_member fuel depth acc key bs rest v (ascii '}') h rfl

theorem readMembers_more (fuel depth : Nat) (acc : List (String × Json)) (key : String)
    (bs rest : Bytes) (v : Json) (h : readValue fuel depth bs = .ok (v, ascii ',' :: rest)) :
    readMembers (fuel + 1) depth acc (writeString key ++ ascii ':' :: bs)
      = readMembers fuel depth (insert key v acc) rest :=
  readMembers_member fuel depth acc key bs rest v (ascii ',') h rfl

/-- Members are read one after another, and each is put in its place among those before it. -/
theorem readMembers_written (members : List (String × Json)) (m : String × Json)
    (fuel depth : Nat) (acc : List (String × Json)) (rest : Bytes)
    (hread : ∀ w ∈ m :: members, ReadsBack w.2)
    (hdepth : nestingMembers (m :: members) ≤ depth)
    (hfuel : 2 * (writeMember m ++ writeRestMembers members).length < fuel) :
    readMembers fuel depth acc (writeMember m ++ (writeRestMembers members ++ ascii '}' :: rest))
      = .ok (.object ((m :: members).foldl (fun acc m => insert m.1 m.2 acc) acc), rest) := by
  induction members generalizing m fuel acc with
  | nil =>
      rcases m with ⟨key, v⟩
      have hv : ReadsBack v := hread (key, v) List.mem_cons_self
      simp only [writeMember, writeRestMembers, List.flatMap_nil, List.append_nil,
        List.nil_append, nestingMembers, List.length_append, List.length_cons,
        List.append_assoc, List.cons_append] at hfuel hdepth ⊢
      cases fuel with
      | zero => omega
      | succ fuel =>
          have hvalue := hv fuel depth (ascii '}' :: rest) (by omega) (by omega)
            (endsNumber_cons _ rest (Or.inr (Or.inr rfl)))
          exact readMembers_last fuel depth acc key _ rest v hvalue
  | cons w members ih =>
      rcases m with ⟨key, v⟩
      have hv : ReadsBack v := hread (key, v) List.mem_cons_self
      have hsplit : writeRestMembers (w :: members)
          = ascii ',' :: (writeMember w ++ writeRestMembers members) := rfl
      have hmember : writeMember (key, v) = writeString key ++ ascii ':' :: v.write := rfl
      rw [nestingMembers] at hdepth
      rw [hsplit, hmember] at hfuel ⊢
      simp only [List.length_append, List.length_cons] at hfuel ih
      simp only [List.append_assoc, List.cons_append]
      cases fuel with
      | zero => omega
      | succ fuel =>
          have hvalue := hv fuel depth
            (ascii ',' :: (writeMember w ++ (writeRestMembers members ++ ascii '}' :: rest)))
            (by omega) (by omega) (endsNumber_cons _ _ (Or.inl rfl))
          rw [readMembers_more fuel depth acc key _ _ v hvalue,
            ih w fuel (insert key v acc) (fun u hu => hread u (List.mem_cons_of_mem _ hu))
              (by omega) (by omega)]
          rfl

/-- Where the keys are sorted, each member goes behind those before it. -/
theorem foldl_insert_of_sorted (members acc : List (String × Json))
    (h : (acc ++ members).Pairwise fun a b => a.1 < b.1) :
    members.foldl (fun acc m => insert m.1 m.2 acc) acc = acc ++ members := by
  induction members generalizing acc with
  | nil => exact (List.append_nil acc).symm
  | cons m members ih =>
      have hlast : ∀ u ∈ acc, u.1 < m.1 := fun u hu =>
        (List.pairwise_append.mp h).2.2 u hu m List.mem_cons_self
      -- The invariant: those that have their place and those that are left are sorted as one.
      have hsorted : (acc ++ [(m.1, m.2)] ++ members).Pairwise fun a b => a.1 < b.1 := by
        rw [List.append_assoc]
        exact h
      rw [List.foldl_cons, insert_of_last m.1 m.2 acc hlast, ih _ hsorted, List.append_assoc,
        List.singleton_append]

theorem readValue_object (fuel depth : Nat) (bs : Bytes) :
    readValue (fuel + 1) (depth + 1) (ascii '{' :: ascii '"' :: bs)
      = readMembers fuel depth [] (ascii '"' :: bs) :=
  rfl

/-- The text of some members, sorted or not, is read as the object with these members. -/
theorem readValue_members (members : List (String × Json)) (fuel depth : Nat) (rest : Bytes)
    (hread : ∀ m ∈ members, ReadsBack m.2) (hdepth : nestingMembers members < depth)
    (hfuel : 2 * (object members).write.length ≤ fuel + 1) :
    readValue (fuel + 1) depth ((object members).write ++ rest) = .ok (ofMembers members, rest) := by
  obtain ⟨depth, rfl⟩ : ∃ n, depth = n + 1 := ⟨depth - 1, by omega⟩
  cases members with
  | nil => rfl
  | cons m members =>
      have hlist := readMembers_written members m fuel depth [] rest hread (by omega) (by
        simp only [write_object, List.length_cons, List.length_append, List.length_nil] at hfuel ⊢
        omega)
      rw [write_object, List.cons_append, List.append_assoc, List.append_assoc,
        List.singleton_append]
      rw [writeMember, List.append_assoc, writeString_append] at hlist ⊢
      rw [readValue_object, hlist, ofMembers]

theorem readsBack_object (members : List (String × Json)) (hread : ∀ m ∈ members, ReadsBack m.2)
    (hsorted : members.Pairwise fun a b => a.1 < b.1) (hmembers : IntegralMembers members) :
    ReadsBack (object members) := by
  refine readsBack_of_succ (object members) hmembers fun fuel depth rest hdepth hfuel _ => ?_
  rw [readValue_members members fuel depth rest hread hdepth hfuel, ofMembers,
    foldl_insert_of_sorted members [] hsorted, List.nil_append]

/-! ## Values -/

mutual

/-- Every well-formed value without fractions is read back. -/
theorem readsBack_of_wellFormed : ∀ v : Json, v.WellFormed → v.Integral → ReadsBack v
  | .null, _, _ => readsBack_null
  | .bool b, _, _ => readsBack_bool b
  | .number (.integer n fits), _, _ => readsBack_integer n fits
  | .number (.fraction _), _, hv => absurd hv not_false
  | .string s, _, _ => readsBack_string s
  | .array items, hw, hv => readsBack_array items (readsBack_items items hw hv) hv
  | .object members, hw, hv =>
      readsBack_object members (readsBack_members members hw.2 hv) hw.1 hv

theorem readsBack_items : ∀ items : List Json, WellFormedItems items → IntegralItems items →
    ∀ v ∈ items, ReadsBack v
  | [], _, _, _, hmem => absurd hmem List.not_mem_nil
  | v :: rest, hw, hv, u, hmem => by
      rcases List.mem_cons.mp hmem with hsame | hmem
      · rw [hsame]
        exact readsBack_of_wellFormed v hw.1 hv.1
      · exact readsBack_items rest hw.2 hv.2 u hmem

theorem readsBack_members : ∀ members : List (String × Json), WellFormedMembers members →
    IntegralMembers members → ∀ m ∈ members, ReadsBack m.2
  | [], _, _, _, hmem => absurd hmem List.not_mem_nil
  | (key, v) :: rest, hw, hv, u, hmem => by
      rcases List.mem_cons.mp hmem with hsame | hmem
      · rw [hsame]
        exact readsBack_of_wellFormed v hw.1 hv.1
      · exact readsBack_members rest hw.2 hv.2 u hmem

end

/-- A whole text is read as the value it was written for. -/
theorem parse_write (v : Json) (hdepth : v.nesting ≤ maxNesting) (hw : v.WellFormed)
    (hv : v.Integral) : parse v.write = .ok v := by
  have hread := readsBack_of_wellFormed v hw hv (fuelFor v.write) maxNesting [] hdepth
    (by rw [fuelFor]; omega) endsNumber_nil
  rw [List.append_nil] at hread
  rw [parse, hread]
  rfl

/-- What was read once is read again from its own text, whatever it was read from at first. -/
theorem parse_write_of_parse (bs : Bytes) (v : Json) (h : parse bs = .ok v) (hv : v.Integral) :
    parse v.write = .ok v := by
  rcases within_of_parse bs v h with ⟨hw, hdepth⟩
  exact parse_write v hdepth hw hv

end Json

end Gateway
