import TreeQuery.Json.Codec
import TreeQuery.Proofs.JsonValues

/-!
# What codecs keep

A document comes back from its text if the codec keeps what the document is made of. What can be
relied on in a codec is said of one value and its immediate parts; nothing is said of whole
documents, of schemas or of queries.

* `Codec.Keeps`: a value that comes back from its own text;
* `Codec.KeepsOrder`, `KeepsStrings`, `KeepsScalars`, `KeepsFloat`: what can be relied on;
* `KeepsOrder.keeps`: by induction over the value, a whole document comes back;
* `standard_keeps`: the standard codec keeps every value that has a text.
-/

namespace TreeQuery.Json.Codec

/-- A value that comes back from its own text as it is. -/
structure Keeps (json : Codec) (v : Value) : Prop where
  isClear : v.IsClear
  read_write : json.read (json.write v) = some ⟨v, true⟩

/-- An array comes back with its items in their order, and an object with its members in theirs,
where items, names and values come back by themselves and do not nest too deeply. -/
structure KeepsOrder (json : Codec) : Prop where
  array {items : List Value} (nested : (Value.array items).nesting ≤ nestingLimit)
    (values : ∀ v ∈ items, json.Keeps v) : json.Keeps (.array items)
  object {members : List (String × Value)} (nested : (Value.object members).nesting ≤ nestingLimit)
    (names : ∀ m ∈ members, json.Keeps (.string m.1)) (values : ∀ m ∈ members, json.Keeps m.2) :
    json.Keeps (.object members)

/-- Strings are escaped so that they come back, whatever characters they hold. -/
def KeepsStrings (json : Codec) : Prop := ∀ s, json.Keeps (.string s)

/-- What is no string and has no parts comes back; among the integers, those of 64 bits. -/
structure KeepsScalars (json : Codec) : Prop where
  null : json.Keeps .null
  bool (b : Bool) : json.Keeps (.bool b)
  integer (n : Int64) : json.Keeps (.number (.integer n.toInt))

/-- The number comes back from the text printed for it, by its bits, if it is finite. -/
def KeepsFloat (json : Codec) (x : Binary64) : Prop :=
  x.isFinite = true → json.Keeps (.number (.float x))

variable {json : Codec} {v : Value}

theorem Keeps.value? (h : json.Keeps v) : json.value? (json.write v) = some v := by
  rw [Codec.value?, h.read_write]
  rfl

/-! ## Whole documents -/

mutual
/-- A document comes back if whatever in it is neither an array nor an object does. -/
theorem KeepsOrder.keeps (order : json.KeepsOrder) (strings : json.KeepsStrings) : ∀ v : Value,
    v.nesting ≤ nestingLimit → v.All json.Keeps → json.Keeps v
  | .array items, nested, h =>
    order.array nested (order.keeps_items strings items (Nat.le_of_succ_le nested) h)
  | .object members, nested, h =>
    order.object nested (fun m _ => strings m.1)
      (order.keeps_members strings members (Nat.le_of_succ_le nested) h)
  | .null, _, h | .bool _, _, h | .number _, _, h | .string _, _, h | .garbled, _, h => h

theorem KeepsOrder.keeps_items (order : json.KeepsOrder) (strings : json.KeepsStrings) :
    ∀ items : List Value, nestingItems items ≤ nestingLimit → AllItems json.Keeps items →
    ∀ v ∈ items, json.Keeps v
  | [], _, _, _, hv => absurd hv List.not_mem_nil
  | v :: items, nested, h, w, hw => by
    have hnested := Nat.max_le.mp nested
    rcases List.mem_cons.mp hw with heq | hw
    · exact heq ▸ order.keeps strings v hnested.1 h.1
    · exact order.keeps_items strings items hnested.2 h.2 w hw

theorem KeepsOrder.keeps_members (order : json.KeepsOrder) (strings : json.KeepsStrings) :
    ∀ members : List (String × Value), nestingMembers members ≤ nestingLimit →
    AllMembers json.Keeps members → ∀ m ∈ members, json.Keeps m.2
  | [], _, _, _, hm => absurd hm List.not_mem_nil
  | (name, v) :: members, nested, h, m, hm => by
    have hnested := Nat.max_le.mp nested
    rcases List.mem_cons.mp hm with heq | hm
    · exact heq ▸ order.keeps strings v hnested.1 h.1
    · exact order.keeps_members strings members hnested.2 h.2 m hm
end

/-! ## The standard codec -/

/-- The standard codec keeps every value that has a text, however deep it nests. -/
theorem standard_keeps (h : v.IsClear) : standard.Keeps v := ⟨h, ofText?_compact h⟩

theorem standard_keepsOrder : standard.KeepsOrder where
  array _ values := standard_keeps (allItems_iff.mpr fun v hv => (values v hv).isClear)
  object _ _ values := standard_keeps (allMembers_iff.mpr fun m hm => (values m hm).isClear)

theorem standard_keepsStrings : standard.KeepsStrings := fun _ => standard_keeps trivial

theorem standard_keepsScalars : standard.KeepsScalars where
  null := standard_keeps trivial
  bool _ := standard_keeps trivial
  integer _ := standard_keeps trivial

theorem standard_keepsFloat (x : Binary64) : standard.KeepsFloat x := fun h => standard_keeps h

end TreeQuery.Json.Codec
