import TreeQuery.Proofs.JsonNumbers
import TreeQuery.Proofs.JsonStrings

/-!
# JSON values written and read

A value is written without blanks and read with fuel. It comes back as it was if it has a text.

* `Value.All`, `Value.IsClear`: a value with nothing in it that has no text;
* `steps_le`: a text is long enough for the fuel that its value takes;
* `readValue_write`: a value is read back from its text, with what stands behind it;
* `ofText?_compact`: so is a value from a whole text.
-/

namespace TreeQuery.Json

mutual
/-- Whatever in the value is neither an array nor an object has a property. -/
def Value.All (p : Value → Prop) : Value → Prop
  | .array items => AllItems p items
  | .object members => AllMembers p members
  | v => p v

def AllItems (p : Value → Prop) : List Value → Prop
  | [] => True
  | v :: items => v.All p ∧ AllItems p items

def AllMembers (p : Value → Prop) : List (String × Value) → Prop
  | [] => True
  | (_, v) :: members => v.All p ∧ AllMembers p members
end

/-- What is garbled has no text, and a number that is not finite has that of another value. -/
def Value.HasText : Value → Prop
  | .number n => n.IsFinite
  | .garbled => False
  | _ => True

/-- Everything in the value has a text. -/
abbrev Value.IsClear (v : Value) : Prop := v.All HasText

theorem allItems_iff {p : Value → Prop} {items : List Value} :
    AllItems p items ↔ ∀ v ∈ items, v.All p := by
  induction items with
  | nil => simp [AllItems]
  | cons v items ih => simp [AllItems, ih]

theorem allMembers_iff {p : Value → Prop} {members : List (String × Value)} :
    AllMembers p members ↔ ∀ m ∈ members, m.2.All p := by
  induction members with
  | nil => simp [AllMembers]
  | cons m members ih => simp [AllMembers, ih]

/-- What is written part by part has the property if the parts have it. -/
theorem all_array_map {α : Type} {p : Value → Prop} {write : α → Value} {items : List α}
    (h : ∀ a ∈ items, (write a).All p) : (Value.array (items.map write)).All p :=
  allItems_iff.mpr (List.forall_mem_map.mpr h)

/-- A map has the property if its values have it. -/
theorem all_object_map {β : Type} {p : Value → Prop} {write : β → Value}
    {entries : List (String × β)} (h : ∀ e ∈ entries, (write e.2).All p) :
    (Value.object (entries.map fun e => (e.1, write e.2))).All p :=
  allMembers_iff.mpr (List.forall_mem_map.mpr h)

theorem nestingItems_le_iff {items : List Value} {k : Nat} :
    nestingItems items ≤ k ↔ ∀ v ∈ items, v.nesting ≤ k := by
  induction items with
  | nil => simp [nestingItems]
  | cons v items ih => simp [nestingItems, ih]

theorem nestingMembers_le_iff {members : List (String × Value)} {k : Nat} :
    nestingMembers members ≤ k ↔ ∀ m ∈ members, m.2.nesting ≤ k := by
  induction members with
  | nil => simp [nestingMembers]
  | cons m members ih => simp [nestingMembers, ih]

/-! ## Fuel -/

mutual
/-- How much fuel the reading of a value takes. -/
def Value.steps : Value → Nat
  | .array items => itemsSteps items + 2
  | .object members => membersSteps members + 2
  | .garbled => 0
  | _ => 1

def itemsSteps : List Value → Nat
  | [] => 0
  | v :: items => v.steps + itemsSteps items + 1

def membersSteps : List (String × Value) → Nat
  | [] => 0
  | (_, v) :: members => v.steps + membersSteps members + 2
end

mutual
/-- Two steps a character are enough. -/
theorem steps_le : ∀ (v : Value) (rest : List Char), v.IsClear →
    v.steps + 2 * rest.length ≤ 2 * (v.write rest).length
  | .null, rest, _ => by simp only [Value.steps, Value.write, List.length_cons]; omega
  | .bool true, rest, _ => by simp only [Value.steps, Value.write, List.length_cons]; omega
  | .bool false, rest, _ => by simp only [Value.steps, Value.write, List.length_cons]; omega
  | .number n, rest, h => by
    obtain ⟨c, cs, hcs, _⟩ := Number.head_text h
    simp only [Value.steps, Value.write, hcs, List.length_append, List.length_cons]
    omega
  | .string s, rest, _ => by
    have := length_writeString s rest
    simp only [Value.steps, Value.write]
    omega
  | .array [], rest, _ => by
    simp only [Value.steps, itemsSteps, Value.write, List.length_cons]
    omega
  | .array (v :: items), rest, h => by
    have hv := steps_le v (writeItems items (']' :: rest)) h.1
    have hitems := itemsSteps_le items (']' :: rest) h.2
    simp only [Value.steps, itemsSteps, Value.write, List.length_cons] at *
    omega
  | .object [], rest, _ => by
    simp only [Value.steps, membersSteps, Value.write, List.length_cons]
    omega
  | .object ((name, v) :: members), rest, h => by
    have hname := length_writeString name (':' :: v.write (writeMembers members ('}' :: rest)))
    have hv := steps_le v (writeMembers members ('}' :: rest)) h.1
    have hmembers := membersSteps_le members ('}' :: rest) h.2
    simp only [Value.steps, membersSteps, Value.write, List.length_cons] at *
    omega
  | .garbled, _, h => h.elim

theorem itemsSteps_le : ∀ (items : List Value) (rest : List Char), AllItems Value.HasText items →
    itemsSteps items + 2 * rest.length ≤ 2 * (writeItems items rest).length
  | [], rest, _ => by simp [itemsSteps, writeItems]
  | v :: items, rest, h => by
    have hv := steps_le v (writeItems items rest) h.1
    have hitems := itemsSteps_le items rest h.2
    simp only [itemsSteps, writeItems, List.length_cons]
    omega

theorem membersSteps_le : ∀ (members : List (String × Value)) (rest : List Char),
    AllMembers Value.HasText members →
    membersSteps members + 2 * rest.length ≤ 2 * (writeMembers members rest).length
  | [], rest, _ => by simp [membersSteps, writeMembers]
  | (name, v) :: members, rest, h => by
    have hname := length_writeString name (':' :: v.write (writeMembers members rest))
    have hv := steps_le v (writeMembers members rest) h.1
    have hmembers := membersSteps_le members rest h.2
    simp only [membersSteps, writeMembers, List.length_cons] at *
    omega
end

/-! ## Reading back -/

theorem skipBlanks_cons {c : Char} (h : isBlank c = false) (cs : List Char) :
    skipBlanks (c :: cs) = c :: cs := by
  simp [skipBlanks, h]

/-- No number begins with any other character. -/
theorem ne_of_number {c d : Char} (h : c = '-' ∨ c.isDigit = true)
    (hd : d ≠ '-' ∧ d.isDigit = false) : c ≠ d := by
  rintro rfl
  exact h.elim hd.1 fun hc => Bool.false_ne_true (hd.2.symm.trans hc)

theorem isBlank_of_number {c : Char} (h : c = '-' ∨ c.isDigit = true) : isBlank c = false := by
  rcases h with rfl | h
  · decide
  · simp only [isBlank, Bool.or_eq_false_iff, decide_eq_false_iff_not]
    refine ⟨⟨⟨?_, ?_⟩, ?_⟩, ?_⟩ <;> rintro rfl <;> exact absurd h (by decide)

/-- The text of a value begins with a character that is no blank and closes no array. -/
theorem Value.head_write {v : Value} (h : v.IsClear) (rest : List Char) :
    ∃ c cs, v.write rest = c :: cs ∧ isBlank c = false ∧ c ≠ ']' := by
  match v with
  | .null | .bool true | .bool false | .string _ | .array [] | .array (_ :: _) | .object []
  | .object (_ :: _) => exact ⟨_, _, rfl, by decide, by decide⟩
  | .number n =>
    obtain ⟨c, cs, hcs, hc⟩ := Number.head_text h
    refine ⟨c, cs ++ rest, by rw [Value.write, hcs, List.cons_append], isBlank_of_number hc, ?_⟩
    rintro rfl
    exact absurd hc (by decide)
  | .garbled => exact h.elim

/-- What begins with a sign or a digit is read as a number. -/
theorem readValue_number {c : Char} (h : c = '-' ∨ c.isDigit = true) (fuel : Nat) (cs : List Char) :
    readValue (fuel + 1) (c :: cs) =
      (readNumber (c :: cs)).map fun (n, rest) => (n.elim .garbled .number, rest) := by
  rw [readValue, skipBlanks_cons (isBlank_of_number h)]
  split
  case h_7 => cases readNumber (c :: cs) <;> rfl
  all_goals
    next heq => exact absurd (List.cons.inj heq).1 (ne_of_number h (by decide))

theorem stops_writeItems (items : List Value) (rest : List Char) :
    Stops (writeItems items (']' :: rest)) := by
  cases items <;> exact stops_cons (by decide) _

theorem stops_writeMembers (members : List (String × Value)) (rest : List Char) :
    Stops (writeMembers members ('}' :: rest)) := by
  cases members <;> exact stops_cons (by decide) _

/-- Members whose names are texts. -/
def named (members : List (String × Value)) : List (Option String × Value) :=
  members.map fun m => (some m.1, m.2)

theorem Value.ofMembers_named (members : List (String × Value)) :
    Value.ofMembers (named members) = .object members := by
  have hmap : (named members).mapM (fun m => m.1.map (·, m.2)) = some members := by
    induction members with
    | nil => rfl
    | cons m members ih => simp_all [named]
  unfold Value.ofMembers
  split
  · next heq => rw [Option.some.inj (heq.symm.trans hmap)]
  · next heq => cases heq.symm.trans hmap

/-- One member is read back when its value is. -/
theorem readMember_write {fuel : Nat} {name : String} {v : Value} {text rest : List Char}
    (h : readValue fuel text = some (v, rest)) :
    readMember (fuel + 1) (writeString name (':' :: text)) = some (some name, v, rest) := by
  rw [readMember, writeString, skipBlanks_cons (by decide)]
  simp [readString_foldr, skipBlanks_cons, isBlank, h]

/-- Members begin with the quote of a name. -/
theorem readMembers_writeString (fuel : Nat) (name : String) (text : List Char) :
    readMembers (fuel + 1) (writeString name text) =
      readMoreMembers fuel (writeString name text) := by
  rw [readMembers, writeString, skipBlanks_cons (by decide)]
  rfl

/-- Items are read back from behind the bracket of their array if those from one on are. -/
theorem exists_readItems {items : List Value} (h : AllItems Value.HasText items) {fuel : Nat}
    {rest : List Char} (more : ∀ text, writeItems items (']' :: rest) = ',' :: text →
      readMoreItems fuel text = (items, some rest)) :
    ∃ text, (Value.array items).write rest = '[' :: text ∧
      readItems (fuel + 1) text = (items, some rest) := by
  cases items with
  | nil => exact ⟨_, rfl, rfl⟩
  | cons v items =>
    obtain ⟨c, cs, hcs, hblank, hclose⟩ := Value.head_write h.1 (writeItems items (']' :: rest))
    have hitems := more _ rfl
    refine ⟨_, rfl, ?_⟩
    rw [hcs] at hitems ⊢
    simp [readItems, skipBlanks_cons hblank, hclose, hitems]

/-- Members are read back from behind the brace of their object if those from one on are. -/
theorem exists_readMembers {members : List (String × Value)} {fuel : Nat} {rest : List Char}
    (more : ∀ text, writeMembers members ('}' :: rest) = ',' :: text →
      readMoreMembers fuel text = (named members, some rest)) :
    ∃ text, (Value.object members).write rest = '{' :: text ∧
      readMembers (fuel + 1) text = (named members, some rest) := by
  cases members with
  | nil => exact ⟨_, rfl, rfl⟩
  | cons m members =>
    refine ⟨_, rfl, ?_⟩
    rw [readMembers_writeString]
    exact more _ rfl

mutual
/-- A value is read back from its text, with what stands behind it. -/
theorem readValue_write : ∀ (v : Value) (fuel : Nat) (rest : List Char), v.IsClear →
    v.steps ≤ fuel → Stops rest → readValue fuel (v.write rest) = some (v, rest)
  | .null, fuel + 1, rest, _, _, _ => rfl
  | .bool true, fuel + 1, rest, _, _, _ => rfl
  | .bool false, fuel + 1, rest, _, _, _ => rfl
  | .number n, fuel + 1, rest, h, _, hrest => by
    obtain ⟨c, cs, hcs, hc⟩ := Number.head_text h
    have hread := readNumber_text h hrest
    rw [hcs, List.cons_append] at hread
    rw [Value.write, hcs, List.cons_append, readValue_number hc, hread]
    rfl
  | .string s, fuel + 1, rest, _, _, _ => by
    rw [Value.write, writeString, readValue, skipBlanks_cons (by decide)]
    simp [readString_foldr]
  | .array items, fuel + 2, rest, h, hfuel, _ => by
    obtain ⟨text, htext, hitems⟩ := exists_readItems h fun text =>
      readMoreItems_write items fuel text rest h (Nat.le_of_add_le_add_right hfuel)
    rw [htext, readValue, skipBlanks_cons (by decide)]
    simp [hitems]
  | .object members, fuel + 2, rest, h, hfuel, _ => by
    obtain ⟨text, htext, hmembers⟩ := exists_readMembers fun text =>
      readMoreMembers_write members fuel text rest h (Nat.le_of_add_le_add_right hfuel)
    rw [htext, readValue, skipBlanks_cons (by decide)]
    simp [hmembers, Value.ofMembers_named]

/-- Items are read back from behind the comma that is written in front of the first. -/
theorem readMoreItems_write : ∀ (items : List Value) (fuel : Nat) (text rest : List Char),
    AllItems Value.HasText items → itemsSteps items ≤ fuel →
    writeItems items (']' :: rest) = ',' :: text →
    readMoreItems fuel text = (items, some rest)
  | v :: items, fuel + 1, text, rest, h, hfuel, htext => by
    obtain rfl := (List.cons.inj htext).2
    have hv := readValue_write v fuel _ h.1 (by simp only [itemsSteps] at hfuel; omega)
      (stops_writeItems items rest)
    rw [readMoreItems, hv]
    cases items with
    | nil => rfl
    | cons w items =>
      have hitems := readMoreItems_write (w :: items) fuel _ rest h.2
        (by simp only [itemsSteps] at *; omega) rfl
      simp [writeItems, skipBlanks_cons, isBlank, hitems]

/-- Members are read back from behind the comma that is written in front of the first. -/
theorem readMoreMembers_write : ∀ (members : List (String × Value)) (fuel : Nat)
    (text rest : List Char), AllMembers Value.HasText members → membersSteps members ≤ fuel →
    writeMembers members ('}' :: rest) = ',' :: text →
    readMoreMembers fuel text = (named members, some rest)
  | (name, v) :: members, fuel + 2, text, rest, h, hfuel, htext => by
    obtain rfl := (List.cons.inj htext).2
    have hv := readValue_write v fuel _ h.1 (by simp only [membersSteps] at hfuel; omega)
      (stops_writeMembers members rest)
    rw [readMoreMembers, readMember_write hv]
    cases members with
    | nil => rfl
    | cons m members =>
      have hmembers := readMoreMembers_write (m :: members) (fuel + 1) _ rest h.2
        (by simp only [membersSteps] at *; omega) rfl
      simp [writeMembers, skipBlanks_cons, isBlank, hmembers, named]
end

/-! ## Whole texts -/

theorem exists_fuel {v : Value} (h : v.IsClear) :
    ∃ fuel, fuelFor (v.write []).length = fuel + 1 ∧ v.steps ≤ fuel := by
  have := steps_le v [] h
  rw [fuelFor]
  exact ⟨4 * (v.write []).length + 3, rfl, by omega⟩

theorem namedMembers_named (members : List (String × Value)) :
    namedMembers (named members) = members := by
  induction members with
  | nil => rfl
  | cons m members ih => exact congrArg (m :: ·) ih

theorem all_isSome_named (members : List (String × Value)) :
    (named members).all (·.1.isSome) = true := by
  simp [named]

/-- What begins neither an array nor an object is read as a whole. -/
theorem ofText?_of_readValue {c : Char} {cs : List Char} {v : Value} (hblank : isBlank c = false)
    (hobject : c ≠ '{') (harray : c ≠ '[')
    (h : readValue (fuelFor (c :: cs).length) (c :: cs) = some (v, [])) :
    Reading.ofText? (String.ofList (c :: cs)) = some ⟨v, true⟩ := by
  rw [Reading.ofText?, String.toList_ofList, skipBlanks_cons hblank]
  generalize fuelFor (c :: cs).length = fuel at h ⊢
  dsimp only
  split
  · next heq => exact absurd (List.cons.inj heq).1 hobject
  · next heq => exact absurd (List.cons.inj heq).1 harray
  · rw [h]
    rfl

/-- A value is read back from a whole text. -/
theorem ofText?_compact {v : Value} (h : v.IsClear) :
    Reading.ofText? v.compact = some ⟨v, true⟩ := by
  obtain ⟨fuel, hfuel, hsteps⟩ := exists_fuel h
  have hread := readValue_write v (fuel + 1) [] h (Nat.le_succ_of_le hsteps) stops_nil
  rw [← hfuel] at hread
  match v with
  | .array items =>
    obtain ⟨text, htext, hitems⟩ := exists_readItems h fun text =>
      readMoreItems_write items fuel text [] h (by simp only [Value.steps] at hsteps; omega)
    rw [htext] at hfuel
    rw [Value.compact, htext, Reading.ofText?, String.toList_ofList, hfuel,
      skipBlanks_cons (by decide)]
    simp only [hitems]
    rfl
  | .object members =>
    obtain ⟨text, htext, hmembers⟩ := exists_readMembers fun text =>
      readMoreMembers_write members fuel text [] h (by simp only [Value.steps] at hsteps; omega)
    rw [htext] at hfuel
    rw [Value.compact, htext, Reading.ofText?, String.toList_ofList, hfuel,
      skipBlanks_cons (by decide)]
    simp only [hmembers, namedMembers_named, all_isSome_named]
    rfl
  | .null | .bool true | .bool false | .string _ =>
    exact ofText?_of_readValue (by decide) (by decide) (by decide) hread
  | .number n =>
    obtain ⟨c, cs, hcs, hc⟩ := Number.head_text h
    have htext : (Value.number n).write [] = c :: cs := by
      rw [Value.write, hcs, List.append_nil]
    rw [htext] at hread
    rw [Value.compact, htext]
    exact ofText?_of_readValue (isBlank_of_number hc) (ne_of_number hc (by decide))
      (ne_of_number hc (by decide)) hread

end TreeQuery.Json
