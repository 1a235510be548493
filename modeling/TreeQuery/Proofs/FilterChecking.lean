import TreeQuery.Proofs.FilterReading

/-!
# Filters checked over a schema

A filter passes the check when each of its nodes is sound on its own. One that does not is rejected
for what a reading from left to right meets first.

* `Operand.Known`, `Operand.Violates`: what the check of a single operand asks for and reports;
* `Filter.Sound`: a node of admitted shape whose operands are known;
* `Filter.FirstViolation`: the violation that comes first, a node's own before its children's;
* `Filter.preorderViolation?`: the same by recursion over the tree, which keeps no stack;
* `firstViolation?_eq_findSome?`: a stack is the forest that is still to be read;
* `Filter.check_reads_in_order`: the walk, the recursion and the specification agree.
-/

namespace TreeQuery

/-! ## Operands -/

section Operands

variable {schema : Schema}

/-- A literal, or a declared attribute of a declared entity. -/
inductive Operand.Known (schema : Schema) : Operand → Prop
  | literal (value : Literal) : Known schema (.literal value)
  | column {entity name : String} {declared : Entity}
      (hentity : schema.entity? entity = some declared) (hname : name ∈ declared.attributes) :
      Known schema (.column entity name)

/-- An operand that is not known, and what is reported of it: an entity that is not declared, or
else an attribute that its entity does not declare. -/
inductive Operand.Violates (schema : Schema) : Operand → QueryViolation → Prop
  | unknownEntity {entity : String} (name : String) (hentity : schema.entity? entity = none) :
      Violates schema (.column entity name) (.unknownEntity entity)
  | unknownAttribute {entity name : String} {declared : Entity}
      (hentity : schema.entity? entity = some declared) (hname : name ∉ declared.attributes) :
      Violates schema (.column entity name) (.unknownAttribute entity name)

namespace Operand

theorem violation?_eq_none_iff {operand : Operand} :
    operand.violation? schema = none ↔ operand.Known schema := by
  cases operand with
  | literal value => exact ⟨fun _ => .literal value, fun _ => rfl⟩
  | column entity name =>
    rw [violation?_eq_none]
    constructor
    · rintro ⟨declared, hentity, hname⟩
      exact .column hentity hname
    · rintro (_ | ⟨hentity, hname⟩)
      exact ⟨_, hentity, hname⟩

theorem violation?_eq_some_iff {operand : Operand} {violation : QueryViolation} :
    operand.violation? schema = some violation ↔ operand.Violates schema violation := by
  constructor
  · intro h
    cases operand with
    | literal value => cases h
    | column entity name =>
      cases hentity : schema.entity? entity with
      | none =>
        obtain rfl : .unknownEntity entity = violation := by simpa [violation?, hentity] using h
        exact .unknownEntity name hentity
      | some declared =>
        obtain ⟨hname, rfl⟩ : name ∉ declared.attributes ∧
            .unknownAttribute entity name = violation := by
          simpa [violation?, hentity] using h
        exact .unknownAttribute hentity hname
  · rintro (⟨name, hentity⟩ | ⟨hentity, hname⟩)
    · simp [violation?, hentity]
    · simp [violation?, hentity, hname]

end Operand

end Operands

namespace Filter

/-- A node that is right by itself, whatever its children are. -/
structure Sound (schema : Schema) (node : Filter) : Prop where
  admitted : node.operator.arity.admits node.count = true
  known : ∀ operand ∈ node.operands, operand.Known schema

/-- What a reading of a filter meets first. Whatever is read before it has passed the check. -/
inductive FirstViolation (schema : Schema) : Filter → QueryViolation → Prop
  | arity {node : Filter} (hcount : ¬ node.operator.arity.admits node.count = true) :
      FirstViolation schema node (.malformedFilter (.arity node.operator node.count))
  | operand {node : Filter} {violation : QueryViolation} {before after : List Operand}
      {operand : Operand} (admitted : node.operator.arity.admits node.count = true)
      (split : node.operands = before ++ operand :: after)
      (known : ∀ earlier ∈ before, earlier.Known schema)
      (violates : operand.Violates schema violation) :
      FirstViolation schema node violation
  | child {node : Filter} {violation : QueryViolation} {before after : List Filter}
      {child : Filter} (sound : node.Sound schema)
      (split : node.children = before ++ child :: after)
      (passed : ∀ earlier ∈ before, ∀ inner ∈ earlier.nodes, inner.Sound schema)
      (first : FirstViolation schema child violation) :
      FirstViolation schema node violation

mutual
/-- The first violation by recursion over the tree: a node's own, or the first of its children. -/
def preorderViolation? (schema : Schema) : Filter → Option QueryViolation
  | .logical op fs =>
    ((logical op fs).ownViolation? schema).or (firstPreorderViolation? schema fs)
  | leaf => leaf.ownViolation? schema

def firstPreorderViolation? (schema : Schema) : List Filter → Option QueryViolation
  | [] => none
  | f :: fs => (preorderViolation? schema f).or (firstPreorderViolation? schema fs)
end

variable {schema : Schema} {f node : Filter} {violation : QueryViolation}

/-! ## Nodes by themselves -/

theorem ownViolation?_of_admits (admitted : node.operator.arity.admits node.count = true) :
    node.ownViolation? schema = node.operands.findSome? (·.violation? schema) := by
  have hfault : node.fault? = none := if_pos admitted
  rw [ownViolation?, hfault]

theorem ownViolation?_of_not_admits (hcount : ¬ node.operator.arity.admits node.count = true) :
    node.ownViolation? schema = some (.malformedFilter (.arity node.operator node.count)) := by
  have hfault : node.fault? = some (.arity node.operator node.count) := if_neg hcount
  rw [ownViolation?, hfault]

theorem ownViolation?_eq_none_iff : node.ownViolation? schema = none ↔ node.Sound schema := by
  constructor
  · intro h
    have admitted : node.operator.arity.admits node.count = true := by
      refine Decidable.byContradiction fun hcount => ?_
      rw [ownViolation?_of_not_admits hcount] at h
      cases h
    rw [ownViolation?_of_admits admitted, List.findSome?_eq_none_iff] at h
    exact ⟨admitted, fun operand hmem => Operand.violation?_eq_none_iff.mp (h operand hmem)⟩
  · intro sound
    rw [ownViolation?_of_admits sound.admitted, List.findSome?_eq_none_iff]
    exact fun operand hmem => Operand.violation?_eq_none_iff.mpr (sound.known operand hmem)

/-- What is wrong with a node itself comes before anything else. -/
theorem FirstViolation.of_own (h : node.ownViolation? schema = some violation) :
    node.FirstViolation schema violation := by
  by_cases admitted : node.operator.arity.admits node.count = true
  · rw [ownViolation?_of_admits admitted, List.findSome?_eq_some_iff] at h
    obtain ⟨before, operand, after, split, violates, passed⟩ := h
    exact .operand admitted split
      (fun earlier hmem => Operand.violation?_eq_none_iff.mp (passed earlier hmem))
      (Operand.violation?_eq_some_iff.mp violates)
  · rw [ownViolation?_of_not_admits admitted] at h
    cases h
    exact .arity admitted

/-! ## The recursion and the stack -/

theorem firstPreorderViolation?_eq (schema : Schema) (fs : List Filter) :
    firstPreorderViolation? schema fs = fs.findSome? (preorderViolation? schema) := by
  induction fs with
  | nil => rfl
  | cons f fs ih =>
    rw [firstPreorderViolation?, ih, List.findSome?_cons]
    cases preorderViolation? schema f <;> rfl

theorem preorderViolation?_eq (schema : Schema) (f : Filter) :
    f.preorderViolation? schema =
      (f.ownViolation? schema).or (f.children.findSome? (preorderViolation? schema)) := by
  cases f with
  | logical op fs => rw [preorderViolation?, firstPreorderViolation?_eq, children]
  | comparison | range | membership => exact (Option.or_none ..).symm

/-- A stack is the forest that is still to be read: the walk finds what the recursion finds in the
first of its trees that does not pass. -/
theorem firstViolation?_eq_findSome? (schema : Schema) (stack : List Filter) :
    firstViolation? schema stack = stack.findSome? (preorderViolation? schema) := by
  fun_induction firstViolation? schema stack with
  | case1 => rfl
  | case2 node stack violation h =>
    rw [List.findSome?_cons, preorderViolation?_eq, h, Option.some_or]
  | case3 node stack h ih =>
    rw [ih, List.findSome?_append, List.findSome?_cons, preorderViolation?_eq, h, Option.none_or]
    cases node.children.findSome? (preorderViolation? schema) <;> rfl

theorem violation?_eq_preorderViolation? (schema : Schema) (f : Filter) :
    f.violation? schema = f.preorderViolation? schema := by
  rw [violation?, firstViolation?_eq_findSome?, List.findSome?_singleton]

theorem violation?_eq_or (schema : Schema) (f : Filter) :
    f.violation? schema =
      (f.ownViolation? schema).or (f.children.findSome? (violation? schema)) := by
  have walk : violation? schema = preorderViolation? schema :=
    funext (violation?_eq_preorderViolation? schema)
  rw [walk, preorderViolation?_eq]

/-! ## What the check reports -/

/-- No node is skipped: a filter passes exactly when all nodes in it are sound. -/
theorem violation?_eq_none_iff :
    f.violation? schema = none ↔ ∀ inner ∈ f.nodes, inner.Sound schema := by
  rw [violation?_eq_head?, violations, List.head?_eq_none_iff, List.flatMap_eq_nil_iff]
  refine forall₂_congr fun inner _ => ?_
  rw [← ownViolation?_eq_none_iff, ownViolation?_eq_head?, List.head?_eq_none_iff]

theorem FirstViolation.of_violation? (h : f.violation? schema = some violation) :
    f.FirstViolation schema violation := by
  induction f using childInduction with
  | step f ih =>
    rw [violation?_eq_or] at h
    cases hown : f.ownViolation? schema with
    | some found =>
      rw [hown, Option.some_or] at h
      exact .of_own (hown.trans h)
    | none =>
      rw [hown, Option.none_or, List.findSome?_eq_some_iff] at h
      obtain ⟨before, child, after, split, hchild, passed⟩ := h
      have hmem : child ∈ f.children := by simp [split]
      exact .child (ownViolation?_eq_none_iff.mp hown) split
        (fun earlier hearlier => violation?_eq_none_iff.mp (passed earlier hearlier))
        (ih child hmem hchild)

theorem FirstViolation.violation?_eq (h : f.FirstViolation schema violation) :
    f.violation? schema = some violation := by
  induction h with
  | arity hcount => rw [violation?_eq_or, ownViolation?_of_not_admits hcount, Option.some_or]
  | operand admitted split known violates =>
    rw [violation?_eq_or, ownViolation?_of_admits admitted,
      List.findSome?_eq_some_iff.mpr ⟨_, _, _, split, Operand.violation?_eq_some_iff.mpr violates,
        fun earlier hmem => Operand.violation?_eq_none_iff.mpr (known earlier hmem)⟩,
      Option.some_or]
  | child sound split passed first ih =>
    rw [violation?_eq_or, ownViolation?_eq_none_iff.mpr sound, Option.none_or]
    exact List.findSome?_eq_some_iff.mpr ⟨_, _, _, split, ih,
      fun earlier hmem => violation?_eq_none_iff.mpr (passed earlier hmem)⟩

/-- **The check reads a filter in order.** Over any schema it passes a filter exactly if each of its
nodes is sound, and reports exactly what a reading from left to right meets first. The walk with a
stack finds what the recursion over the tree finds. -/
theorem check_reads_in_order (schema : Schema) (f : Filter) :
    (f.violation? schema = none ↔ ∀ inner ∈ f.nodes, inner.Sound schema) ∧
      (∀ violation,
        f.violation? schema = some violation ↔ f.FirstViolation schema violation) ∧
      f.violation? schema = f.preorderViolation? schema :=
  ⟨violation?_eq_none_iff, fun _ => ⟨.of_violation?, FirstViolation.violation?_eq⟩,
    violation?_eq_preorderViolation? schema f⟩

end Filter

end TreeQuery
