import TreeQuery.Proofs.Expansion
import TreeQuery.Proofs.NumberedTokens

/-!
# The tokens of a compiled filter

What a compiled filter is written as, with its literals in the places of their placeholders.

* `Filter.tokens`: the tokens of a filter, by recursion;
* `operandsOf_tokens`: the operands among them are those of the filter, from left to right;
* `expand_writes`: the expression of a filter reads as its tokens;
* `compile_follows_recursion`: the compilation follows its specification by recursion.
-/

namespace TreeQuery

open Sql (Token)

/-! ## The tokens of a filter -/

def Operand.tokens : Operand → List (Token Literal)
  | .column entity name => [.name entity, .mark '.', .name name]
  | .literal value => [.placeholder value]

/-- The words that an operator is spelled with. -/
def Operator.words (op : Operator) : List String :=
  (Sql.tokens op.sql).filterMap fun
    | .word w => some w
    | _ => none

def Operator.tokens (op : Operator) : List (Token Literal) := op.words.map .word

namespace Filter

/-- The tokens of a logical node around those of its children. -/
def logicalTokens : LogicalOp → List (List (Token Literal)) → List (Token Literal)
  | .not, groups => .word LogicalOp.not.sql :: List.intercalate [] groups
  | op, groups => List.intercalate [.word op.sql] groups

mutual
/-- The tokens of a filter, with its literals in the places of their placeholders. -/
def tokens : Filter → List (Token Literal)
  | .logical op children => logicalTokens op (groups children)
  | .comparison op left right =>
    left.tokens ++ (Operator.comparison op).tokens ++ right.tokens
  | .range op subject low high =>
    subject.tokens ++ (Operator.range op).tokens ++ (low.tokens ++ [.word "AND"] ++ high.tokens)
  | .membership op subject candidates =>
    subject.tokens ++ ((Operator.membership op).tokens ++ [.mark '(']) ++
      List.intercalate [.mark ','] (candidates.map Operand.tokens) ++ [.mark ')']

/-- The tokens of some filters, each in parentheses. -/
def groups : List Filter → List (List (Token Literal))
  | [] => []
  | child :: rest => (.mark '(' :: (child.tokens ++ [.mark ')'])) :: groups rest
end

end Filter

open Sql

theorem Operator.values_tokens (op : Operator) : values op.tokens = [] := values_words _

theorem Operator.gap (op : Operator) : Gap (" " ++ op.sql ++ " ") op.tokens where
  values := op.values_tokens
  closed first := by
    intro rest
    rw [tokens, number_words]
    cases op with
    | logical op | comparison op | range op | membership op => cases op <;> rfl
  ne_nil := by simp
  ends := by
    cases op with
    | logical op | comparison op | range op | membership op => cases op <;> rfl

theorem gap_blank : Gap " " [] := ⟨⟨rfl, fun _ _ => rfl⟩, by decide, rfl⟩

theorem gap_open : Gap "(" [.mark '('] := ⟨⟨rfl, fun _ _ => rfl⟩, by decide, rfl⟩

theorem gap_close : Gap ")" [.mark ')'] := ⟨⟨rfl, fun _ _ => rfl⟩, by decide, rfl⟩

theorem gap_point : Gap "." [.mark '.'] := ⟨⟨rfl, fun _ _ => rfl⟩, by decide, rfl⟩

theorem gap_comma : Gap ", " [.mark ','] := ⟨⟨rfl, fun _ _ => rfl⟩, by decide, rfl⟩

theorem gap_and : Gap " AND " [.word "AND"] := ⟨⟨rfl, fun _ _ => rfl⟩, by decide, rfl⟩

theorem gap_or : Gap " OR " [.word "OR"] := ⟨⟨rfl, fun _ _ => rfl⟩, by decide, rfl⟩

theorem frame_not : Frame "NOT " [.word "NOT"] := ⟨rfl, fun _ _ => rfl⟩

theorem writes_column (first : UInt64) (entity name : String) :
    Writes first (Column.sql ⟨entity, name⟩) (Operand.column entity name).tokens := by
  have hentity : Writes first (quoteName entity) [.name entity] := scans_quoteName entity
  exact gap_point.writes_append hentity (scans_quoteName name)

theorem Operand.texts_written (first : UInt64) (operands : List Operand) :
    WritesAll first (texts first operands) (operands.map tokens) := by
  induction operands generalizing first with
  | nil => exact .nil
  | cons operand operands ih =>
    cases operand with
    | column entity name =>
      refine .cons (writes_column first entity name) ?_
      rw [after_of_values_eq_nil rfl]
      exact ih first
    | literal value => exact .cons (scans_placeholder first.toNat) (ih (first + 1))

namespace Filter

theorem writes_group {first : UInt64} {s : String} {ts : List (Token Literal)}
    (h : Writes first s ts) : Writes first ("(" ++ s ++ ")") (.mark '(' :: (ts ++ [.mark ')'])) :=
  gap_close.writes_end (gap_open.append_writes h)

/-- A leaf reads as its operands in the frame of its operator. -/
theorem writes_leafText {f : Filter} {first : UInt64} {texts : List String}
    (hleaf : f.operator.isLogical = false)
    (h : WritesAll first texts (f.operands.map Operand.tokens)) :
    Writes first (f.leafText texts) f.tokens := by
  cases f with
  | logical op children => cases hleaf
  | comparison op left right =>
    obtain _ | ⟨hleft, _ | ⟨hright, _ | _⟩⟩ := h
    have written := (Operator.comparison op).gap.writes_append hleft hright
    simpa only [leafText, tokens, Operator.sql, String.append_assoc] using written
  | range op subject low high =>
    obtain _ | ⟨hsubject, _ | ⟨hlow, _ | ⟨hhigh, _ | _⟩⟩⟩ := h
    have bounds := gap_and.writes_append hlow hhigh
    have written := (Operator.range op).gap.writes_append hsubject bounds
    simpa only [leafText, tokens, Operator.sql, String.append_assoc] using written
  | membership op subject candidates =>
    obtain _ | ⟨hsubject, hcandidates⟩ := h
    have gap := (Operator.membership op).gap.append gap_open
    have written := gap_close.writes_end
      (gap.writes_append hsubject (hcandidates.intercalate gap_comma))
    have hparen : " (" = " " ++ "(" := rfl
    simpa only [leafText, tokens, Operator.sql, String.append_assoc, hparen] using written

/-- A logical node reads as its children in the frame of its operator. -/
theorem writes_logicalText {first : UInt64} {texts : List String}
    {groups : List (List (Token Literal))} (op : LogicalOp) (h : WritesAll first texts groups) :
    Writes first (logicalText op texts) (logicalTokens op groups) := by
  cases op with
  | and => exact h.intercalate gap_and
  | or => exact h.intercalate gap_or
  | not => exact frame_not.append_writes (h.intercalate gap_blank)

/-! ## The operands among the tokens -/

/-- Tokens among which some operands stand, whatever follows. -/
def Lists (ts : List (Token Literal)) (os : List Operand) : Prop :=
  ∀ rest, operandsOf (ts ++ rest) = os ++ operandsOf rest

variable {ts ts' us : List (Token Literal)} {os os' : List Operand}

theorem Lists.operandsOf_eq (h : Lists ts os) : operandsOf ts = os := by
  have hs := h []
  rwa [List.append_nil, operandsOf, List.append_nil] at hs

theorem Lists.nil : Lists [] [] := fun _ => rfl

theorem Lists.append (h : Lists ts os) (h' : Lists ts' os') : Lists (ts ++ ts') (os ++ os') := by
  intro rest
  rw [List.append_assoc, h, h', List.append_assoc]

theorem Lists.intercalate {tss : List (List (Token Literal))} {oss : List (List Operand)}
    (gap : Lists us []) (h : List.Forall₂ Lists tss oss) :
    Lists (us.intercalate tss) oss.flatten :=
  intercalate_nil oss ▸ forall₂_intercalate .nil Lists.append gap h

theorem Lists.group (h : Lists ts os) : Lists (.mark '(' :: (ts ++ [.mark ')'])) os := by
  intro rest
  rw [List.cons_append, List.append_assoc]
  exact h _

theorem lists_word (w : String) : Lists [.word w] [] := fun _ => rfl

theorem lists_operator (op : Operator) : Lists op.tokens [] := by
  rw [Operator.tokens]
  induction op.words with
  | nil => exact .nil
  | cons w words ih => exact (lists_word w).append ih

theorem lists_operand (operand : Operand) : Lists operand.tokens [operand] := by
  cases operand <;> exact fun _ => rfl

theorem lists_operands (operands : List Operand) :
    Lists (List.intercalate [.mark ','] (operands.map Operand.tokens)) operands := by
  have each : List.Forall₂ Lists (operands.map Operand.tokens) (operands.map fun x => [x]) := by
    induction operands with
    | nil => exact .nil
    | cons operand operands ih => exact .cons (lists_operand operand) ih
  have comma : Lists [.mark ','] [] := fun _ => rfl
  have all := comma.intercalate each
  rwa [← List.flatMap_def, List.flatMap_singleton'] at all

mutual
/-- The operands stand in the tokens of a filter as they do in the filter. -/
theorem tokens_list : ∀ f : Filter, Lists f.tokens f.allOperands
  | .logical op children => by
    have hchildren := groups_list children
    rw [allOperands_logical]
    cases op with
    | and | or => exact (lists_word _).intercalate hchildren
    | not => exact (lists_word _).append (Lists.nil.intercalate hchildren)
  | .comparison op left right => by
    have framed := ((lists_operand left).append (lists_operator (.comparison op))).append
      (lists_operand right)
    rw [allOperands_of_leaf rfl]
    exact framed
  | .range op subject low high => by
    have bounds := ((lists_operand low).append (lists_word "AND")).append (lists_operand high)
    have framed := ((lists_operand subject).append (lists_operator (.range op))).append bounds
    rw [allOperands_of_leaf rfl]
    exact framed
  | .membership op subject candidates => by
    have framed := ((lists_operand subject).append (lists_operator (.membership op))).append
      (lists_operands candidates).group
    rw [allOperands_of_leaf rfl]
    simpa only [tokens, operands, List.append_assoc, List.cons_append, List.nil_append]
      using framed

theorem groups_list : ∀ fs : List Filter, List.Forall₂ Lists (groups fs) (fs.map allOperands)
  | [] => .nil
  | f :: fs => .cons (tokens_list f).group (groups_list fs)
end

theorem operandsOf_tokens (f : Filter) : operandsOf f.tokens = f.allOperands :=
  (tokens_list f).operandsOf_eq

theorem values_tokens (f : Filter) : values f.tokens = f.literals := by
  rw [values_eq, operandsOf_tokens, literals]

theorem values_group (ts : List (Token Literal)) :
    values (.mark '(' :: (ts ++ [.mark ')'])) = values ts := by
  rw [values_cons, values_append]
  exact List.append_nil _

/-! ## Expressions -/

theorem expandLeaf_writes {f : Filter} {first : UInt64} {compiled : Compiled}
    (hleaf : f.operator.isLogical = false) (h : f.expandLeaf first = .ok compiled) :
    Writes first compiled.sql f.tokens := by
  unfold expandLeaf at h
  cases hf : f.fault? with
  | some fault => simp [hf] at h
  | none =>
    simp only [hf] at h
    obtain rfl := Except.ok.inj h
    exact writes_leafText hleaf (Operand.texts_written first f.operands)

mutual
/-- **The expression of a filter reads as the tokens of the filter**, numbered from its first
number. -/
theorem expand_writes : ∀ (f : Filter) {first : UInt64} {compiled : Compiled},
    f.expand first = .ok compiled → Writes first compiled.sql f.tokens
  | .logical op children, first, compiled, h => by
    rw [expand] at h
    cases hf : (Operator.logical op).arityFault? children.length with
    | some fault => simp [hf] at h
    | none =>
      simp only [hf] at h
      cases hparts : expandAll first children with
      | error fault => simp [hparts] at h
      | ok parts =>
        rw [hparts, ok_bind] at h
        obtain rfl := Except.ok.inj h
        exact writes_logicalText op (expandAll_writes children hparts)
  | .comparison op left right, first, compiled, h => expandLeaf_writes rfl h
  | .range op subject low high, first, compiled, h => expandLeaf_writes rfl h
  | .membership op subject candidates, first, compiled, h => expandLeaf_writes rfl h

theorem expandAll_writes : ∀ (fs : List Filter) {first : UInt64} {parts : List Compiled},
    expandAll first fs = .ok parts →
      WritesAll first (parts.map fun part => "(" ++ part.sql ++ ")") (groups fs)
  | [], first, parts, h => by
    obtain rfl := Except.ok.inj h
    exact .nil
  | f :: fs, first, parts, h => by
    rw [expandAll] at h
    cases hpart : f.expand first with
    | error fault => simp [hpart] at h
    | ok part =>
      rw [hpart, ok_bind] at h
      cases hrest : expandAll (first + UInt64.ofNat f.literals.length) fs with
      | error fault => simp [hrest] at h
      | ok rest =>
        rw [hrest, ok_bind] at h
        obtain rfl := Except.ok.inj h
        refine .cons (writes_group (expand_writes f hpart)) ?_
        have hafter : after first (.mark '(' :: (f.tokens ++ [.mark ')'])) =
            first + UInt64.ofNat f.literals.length := by
          rw [after, values_group, values_tokens]
        rw [hafter]
        exact expandAll_writes fs hrest
end

/-- A compiled filter reads as its tokens, and has its literals beside it. -/
theorem tokens_of_compile {f : Filter} {first : UInt64} {compiled : Compiled}
    (h : f.compile first = .ok compiled) :
    f.faults = [] ∧ Sql.tokens compiled.sql = number first f.tokens ∧
      compiled.binds = values f.tokens := by
  have hexpand : f.expand first = .ok compiled := by rw [← compile_eq_expand, h]
  have hwritten := expand_writes f hexpand
  rw [compile_eq, text_advances] at h
  cases hfaults : f.faults.head? with
  | some fault => simp [hfaults] at h
  | none =>
    have hbinds : f.literals = compiled.binds := by
      simp only [hfaults] at h
      exact congrArg Compiled.binds (Except.ok.inj h)
    exact ⟨List.head?_eq_none_iff.mp hfaults, hwritten.tokens_eq, by rw [values_tokens, hbinds]⟩

theorem tokens_ne_nil {f : Filter} (h : f.fault? = none) : f.tokens ≠ [] := by
  cases f with
  | logical op children =>
    cases op with
    | not => exact List.cons_ne_nil _ _
    | and | or =>
      obtain ⟨child, next, rest, rfl⟩ := exists_pair (by simp) h
      simp [tokens, logicalTokens, groups, List.intercalate_cons_cons]
  | comparison op subject right => cases subject <;> simp [tokens, Operand.tokens]
  | range op subject low high => cases subject <;> simp [tokens, Operand.tokens]
  | membership op subject candidates => cases subject <;> simp [tokens, Operand.tokens]

/-- **The compilation with its stack of open nodes follows the recursion over the filter.** It fails
exactly when the shape of some node is wrong, with the fault of the first such node from left to
right. Otherwise the literals are those of the operands from left to right, the expression is never
empty, and its placeholders are numbered one after another from the first, as long as the numbers do
not run out. -/
theorem compile_follows_recursion (f : Filter) (first : UInt64) :
    f.compile first = f.expand first ∧
    (∀ fault, f.compile first = .error fault ↔ f.faults.head? = some fault) ∧
    (f.faults = [] → ∃ compiled, f.compile first = .ok compiled ∧
      compiled.binds = f.literals ∧ compiled.sql ≠ "" ∧
      (first.toNat + f.literals.length < UInt64.size →
        placeholders compiled.sql = List.range' first.toNat compiled.binds.length)) := by
  refine ⟨compile_eq_expand f first, fun fault => ?_, fun h => ?_⟩
  · rw [compile_eq]
    cases f.faults.head? <;> simp
  · obtain ⟨compiled, hcompiled, hbinds⟩ := exists_compile h first
    obtain ⟨-, htokens, -⟩ := tokens_of_compile hcompiled
    refine ⟨compiled, hcompiled, hbinds, ?_, fun hsize => ?_⟩
    · intro hempty
      have hnil : number first f.tokens = [] := by rw [← htokens, hempty]; rfl
      exact number_ne_nil (tokens_ne_nil (fault?_eq_none h)) hnil
    · have hnumbers : placeholders compiled.sql = values (number first f.tokens) := by
        rw [placeholders, htokens, values]
      rw [hnumbers, values_number, values_tokens, hbinds, List.range'_eq_map_range]
      refine List.map_congr_left fun k hk => ?_
      exact toNat_add_ofNat (by have := List.mem_range.mp hk; omega)

/-- Nested operators over names that look like the text around them. -/
def outsiders : Filter :=
  .logical .not [.logical .or [
    .range .notBetween (.column "User" "age") (.literal (.integer 18)) (.literal (.integer 30)),
    .membership .among (.literal (.text "(:1)")) [.column "a\"b" " AND :1", .literal .null]]]

theorem outsiders_compiled :
    ∃ compiled, outsiders.compile 7 = .ok compiled ∧
      compiled.binds = [.integer 18, .integer 30, .text "(:1)", .null] ∧ compiled.sql ≠ "" ∧
      placeholders compiled.sql = [7, 8, 9, 10] := by
  obtain ⟨compiled, hcompiled, hbinds, hsql, hnumbers⟩ :=
    (compile_follows_recursion outsiders 7).2.2 (by decide)
  have hbinds : compiled.binds = [.integer 18, .integer 30, .text "(:1)", .null] := hbinds
  refine ⟨compiled, hcompiled, hbinds, hsql, ?_⟩
  rw [hnumbers (by decide), hbinds]
  rfl

end Filter

end TreeQuery
