import TreeQuery.Proofs.Scope

/-!
# The tokens of a statement

Whatever a name holds, it is read back as one name, and all that is read around the names is what
the clauses are made of.

* `Plan.tokens`, `Plan.names`: the tokens that the clauses of a plan stand for, and the names among
  them;
* `Phrase`: a text without literals and the tokens that it is read as;
* `Plan.body_writes`: the clauses behind the prologue are read as the tokens of the plan;
* `Plan.filterMap_tokens`: what is among these tokens besides the fixed ones;
* `names_stay_names`: every statement of an answer is read as its plan.
-/

namespace TreeQuery

open Sql

/-! ## What the clauses stand for -/

namespace Sql

/-- The words and operators of which statements are made. -/
def keywords : List String :=
  ["SELECT", "FROM", "WHERE", "IN", "JOIN", "ON", "AND", "OR", "NOT", "LIKE", "IS", "BETWEEN",
    "=", "<", ">", "<=", ">=", "!="]

/-- The punctuation of statements. -/
def punctuation : List Char := ['.', ',', '(', ')']

/-- A token that is neither a name nor a placeholder, but part of every statement of its form. -/
def Token.fixed {π : Type} : Token π → Bool
  | .word w => keywords.contains w
  | .mark c => punctuation.contains c
  | _ => false

/-- The name that a token is read as. -/
def Token.name? {π : Type} : Token π → Option String
  | .name s => some s
  | _ => none

def Column.tokens (c : Column) : List (Token Literal) := [.name c.entity, .mark '.', .name c.name]

def Column.names (c : Column) : List String := [c.entity, c.name]

/-- Columns with commas between them. -/
def columnTokens (columns : List Column) : List (Token Literal) :=
  List.intercalate [.mark ','] (columns.map Column.tokens)

/-- A key as a value: any number of columns but one stands in parentheses. -/
def keyTokens (columns : List Column) : List (Token Literal) :=
  if columns.length = 1 then columnTokens columns
  else [Token.mark '('] ++ columnTokens columns ++ [Token.mark ')']

end Sql

namespace JoinCondition

def tokens (c : JoinCondition) : List (Token Literal) :=
  c.left.tokens ++ [Token.word "="] ++ c.right.tokens

def names (c : JoinCondition) : List String := c.left.names ++ c.right.names

end JoinCondition

namespace Join

def tokens (j : Join) : List (Token Literal) :=
  [Token.word "JOIN"] ++ [Token.name j.entity] ++ [Token.word "ON"] ++
    List.intercalate [.word "AND"] (j.conditions.map JoinCondition.tokens)

def names (j : Join) : List String := [j.entity] ++ j.conditions.flatMap JoinCondition.names

end Join

namespace KeyFilter

/-- The key columns of the filtered entity. -/
def columns (k : KeyFilter) : List Column := k.key.map (Column.mk k.entity)

/-- The tokens of a subquery around those of its predicate. -/
def tokens (k : KeyFilter) (predicate : List (Token Literal)) : List (Token Literal) :=
  [Token.word "WHERE"] ++ keyTokens k.columns ++
    [Token.word "IN", Token.mark '(', Token.word "SELECT"] ++ columnTokens k.columns ++
    [Token.word "FROM"] ++ ([Token.name k.entity] ++ k.joins.flatMap Join.tokens) ++
    [Token.word "WHERE"] ++ predicate ++ [Token.mark ')']

/-- The names of a subquery: its key, once as a value and once selected, its entity, and what is
joined to that. -/
def names (k : KeyFilter) : List String :=
  k.columns.flatMap Column.names ++ k.columns.flatMap Column.names ++ [k.entity] ++
    k.joins.flatMap Join.names

end KeyFilter

namespace Plan

/-- The tokens of the outer query and of the subquery, if there is one, around those of its
predicate. -/
def tokens (plan : Plan) (predicate : List (Token Literal)) : List (Token Literal) :=
  [Token.word "SELECT"] ++ columnTokens plan.select ++
    [Token.word "FROM"] ++ [Token.name plan.entity] ++
    (plan.filter.map (·.tokens predicate)).getD []

/-- The names of a plan, up to those of the predicate. -/
def names (plan : Plan) : List String :=
  plan.select.flatMap Column.names ++ [plan.entity] ++ (plan.filter.map KeyFilter.names).getD []

/-- The clauses behind the prologue. -/
def body (plan : Plan) : String :=
  selectSql plan.select ++ " " ++ sourceSql plan.entity ++
    ((plan.filter.map fun k => " " ++ k.sql).getD "")

end Plan

/-! ## Texts without literals -/

namespace Sql

/-- A text without literals with the tokens that it is read as. -/
structure Phrase (s : String) (ts : List (Token Literal)) : Prop where
  values : values ts = []
  writes : ∀ first, Writes first s ts

variable {first : UInt64} {s s' p : String} {ts ts' us : List (Token Literal)}

namespace Phrase

/-- A text with literals may follow a text without them. -/
theorem append_writes (h : Phrase s ts) (gap : Gap p us) (h' : Writes first s' ts') :
    Writes first (s ++ p ++ s') (ts ++ us ++ ts') := by
  have hafter : after first ts = first := after_of_values_eq_nil h.values first
  exact gap.writes_append (h.writes first) (hafter.symm ▸ h')

theorem append (h : Phrase s ts) (gap : Gap p us) (h' : Phrase s' ts') :
    Phrase (s ++ p ++ s') (ts ++ us ++ ts') where
  values := by rw [values_append, values_append, h.values, gap.values, h'.values]; rfl
  writes first := h.append_writes gap (h'.writes first)

theorem open_with (h : Phrase s ts) (frame : Frame p us) : Phrase (p ++ s) (us ++ ts) where
  values := by rw [values_append, h.values, frame.values]; rfl
  writes first := frame.append_writes (h.writes first)

theorem end_with (h : Phrase s ts) (gap : Gap p us) : Phrase (s ++ p) (ts ++ us) where
  values := by rw [values_append, h.values, gap.values]; rfl
  writes first := gap.writes_end (h.writes first)

theorem intercalate {texts : List String} {tokens : List (List (Token Literal))} (gap : Gap p us)
    (h : List.Forall₂ Phrase texts tokens) :
    Phrase (p.intercalate texts) (us.intercalate tokens) := by
  induction h with
  | nil => exact ⟨rfl, fun _ _ _ => rfl⟩
  | cons head tail ih =>
    cases tail with
    | nil => simpa using head
    | cons next rest =>
      rw [String.intercalate_cons_cons, List.intercalate_cons_cons]
      exact head.append gap ih

/-- Texts made of the same things as their tokens. -/
theorem each {α : Type} {text : α → String} {tokens : α → List (Token Literal)}
    (h : ∀ x, Phrase (text x) (tokens x)) (xs : List α) :
    List.Forall₂ Phrase (xs.map text) (xs.map tokens) := by
  induction xs with
  | nil => exact .nil
  | cons x xs ih => exact .cons (h x) ih

end Phrase

end Sql

/-! ## The clauses as phrases -/

open Sql

theorem frame_select : Frame "SELECT " [.word "SELECT"] := ⟨rfl, fun _ _ => rfl⟩

theorem frame_where : Frame "WHERE " [.word "WHERE"] := ⟨rfl, fun _ _ => rfl⟩

theorem frame_join : Frame "JOIN " [.word "JOIN"] := ⟨rfl, fun _ _ => rfl⟩

theorem gap_from : Gap " FROM " [.word "FROM"] := ⟨⟨rfl, fun _ _ => rfl⟩, by decide, rfl⟩

theorem gap_where : Gap " WHERE " [.word "WHERE"] := ⟨⟨rfl, fun _ _ => rfl⟩, by decide, rfl⟩

theorem gap_on : Gap " ON " [.word "ON"] := ⟨⟨rfl, fun _ _ => rfl⟩, by decide, rfl⟩

theorem gap_equal : Gap " = " [.word "="] := ⟨⟨rfl, fun _ _ => rfl⟩, by decide, rfl⟩

theorem gap_in_select : Gap " IN (SELECT " [.word "IN", .mark '(', .word "SELECT"] :=
  ⟨⟨rfl, fun _ _ => rfl⟩, by decide, rfl⟩

theorem phrase_name (name : String) : Phrase (quoteName name) [.name name] :=
  ⟨rfl, fun _ => scans_quoteName name⟩

theorem Sql.Column.phrase (c : Column) : Phrase c.sql c.tokens :=
  (phrase_name c.entity).append gap_point (phrase_name c.name)

theorem phrase_columns (columns : List Column) :
    Phrase (", ".intercalate (columns.map Column.sql)) (columnTokens columns) :=
  .intercalate gap_comma (Phrase.each Column.phrase columns)

theorem phrase_columnList (entity : String) (key : List String) :
    Phrase (columnList entity key) (columnTokens (key.map (Column.mk entity))) := by
  have hcolumns := phrase_columns (key.map (Column.mk entity))
  rw [List.map_map] at hcolumns
  rw [columnList, Text.separated_eq_intercalate]
  exact hcolumns

theorem phrase_key (entity : String) (key : List String) :
    Phrase (keyValue entity key) (keyTokens (key.map (Column.mk entity))) := by
  have hlist := phrase_columnList entity key
  rw [keyValue, keyTokens, List.length_map]
  split
  · exact hlist
  · exact (hlist.open_with gap_open.toFrame).end_with gap_close

theorem JoinCondition.phrase (c : JoinCondition) : Phrase c.sql c.tokens :=
  c.left.phrase.append gap_equal c.right.phrase

theorem Join.phrase (j : Join) : Phrase j.sql j.tokens := by
  have conditions : Phrase (" AND ".intercalate (j.conditions.map JoinCondition.sql))
      (List.intercalate [.word "AND"] (j.conditions.map JoinCondition.tokens)) :=
    .intercalate gap_and (Phrase.each JoinCondition.phrase j.conditions)
  rw [sql, Text.separated_eq_intercalate]
  exact ((phrase_name j.entity).open_with frame_join).append gap_on conditions

theorem KeyFilter.phrase_source (k : KeyFilter) :
    Phrase k.sourceSql ([Token.name k.entity] ++ k.joins.flatMap Join.tokens) := by
  have hsource := Phrase.intercalate gap_blank
    (.cons (phrase_name k.entity) (Phrase.each Join.phrase k.joins))
  rw [intercalate_nil, List.flatten_cons, ← List.flatMap_def] at hsource
  rw [sourceSql_eq]
  exact hsource

/-- A subquery is read as its tokens if its predicate is. -/
theorem KeyFilter.writes {k : KeyFilter} {first : UInt64} {predicate : List (Token Literal)}
    (h : Writes first k.predicate predicate) : Writes first k.sql (k.tokens predicate) := by
  have hkey : Phrase ("WHERE " ++ keyValue k.entity k.key)
      ([Token.word "WHERE"] ++ keyTokens k.columns) :=
    (phrase_key k.entity k.key).open_with frame_where
  have hselected := hkey.append gap_in_select (phrase_columnList k.entity k.key)
  have hsource := hselected.append gap_from k.phrase_source
  exact gap_close.writes_end (hsource.append_writes gap_where h)

/-- The clauses behind the prologue are read as the tokens of the plan. -/
theorem Plan.body_writes {plan : Plan} {first : UInt64} {predicate : List (Token Literal)}
    (h : ∀ k, plan.filter = some k → Writes first k.predicate predicate) :
    Writes first plan.body (plan.tokens predicate) := by
  have hselect : Phrase (selectSql plan.select)
      ([Token.word "SELECT"] ++ columnTokens plan.select) := by
    rw [selectSql, Text.separated_eq_intercalate]
    exact (phrase_columns plan.select).open_with frame_select
  have houter : Phrase (selectSql plan.select ++ " " ++ sourceSql plan.entity)
      ([Token.word "SELECT"] ++ columnTokens plan.select ++
        [Token.word "FROM"] ++ [Token.name plan.entity]) := by
    have hfrom : " " ++ ("FROM " ++ quoteName plan.entity) = " FROM " ++ quoteName plan.entity := by
      rw [← String.append_assoc]
      rfl
    rw [sourceSql, String.append_assoc, hfrom, ← String.append_assoc]
    exact hselect.append gap_from (phrase_name plan.entity)
  unfold body tokens
  cases hf : plan.filter with
  | none =>
    simpa using houter.writes first
  | some k =>
    have hfilter := houter.append_writes gap_blank (k.writes (h k hf))
    rw [List.append_nil] at hfilter
    simpa only [Option.map_some, Option.getD_some, ← String.append_assoc] using hfilter

/-! ## The names among the tokens -/

namespace Sql

/-- What is collected from tokens, with nothing taken from the fixed ones. -/
def PassesOver {β : Type} (f : Token Literal → Option β) : Prop :=
  ∀ t, t.fixed = true → f t = none

variable {β : Type} {f : Token Literal → Option β}

theorem filterMap_intercalate (hf : PassesOver f) {gap : List (Token Literal)}
    (hgap : ∀ t ∈ gap, t.fixed = true) (parts : List (List (Token Literal))) :
    (gap.intercalate parts).filterMap f = parts.flatMap (List.filterMap f) := by
  have hnone : gap.filterMap f = [] :=
    List.filterMap_eq_nil_iff.mpr fun t ht => hf t (hgap t ht)
  induction parts with
  | nil => rfl
  | cons part parts ih =>
    cases parts with
    | nil => simp
    | cons next parts =>
      rw [List.intercalate_cons_cons, List.filterMap_append, List.filterMap_append, hnone, ih,
        List.append_nil, ← List.flatMap_cons]

/-- What is collected from things with fixed tokens between them comes from their names. -/
theorem filterMap_list (hf : PassesOver f) {gap : List (Token Literal)}
    (hgap : ∀ t ∈ gap, t.fixed = true) {α : Type} {tokens : α → List (Token Literal)}
    {names : α → List String}
    (h : ∀ x, (tokens x).filterMap f = (names x).filterMap fun s => f (.name s)) (xs : List α) :
    (gap.intercalate (xs.map tokens)).filterMap f =
      (xs.flatMap names).filterMap fun s => f (.name s) := by
  rw [filterMap_intercalate hf hgap, List.flatMap_map, List.filterMap_flatMap]
  exact List.flatMap_congr fun x _ => h x

theorem Column.filterMap_tokens (hf : PassesOver f) (c : Column) :
    c.tokens.filterMap f = c.names.filterMap fun s => f (.name s) := by
  have hpoint : f (.mark '.') = none := hf _ rfl
  simp [tokens, names, List.filterMap_cons, hpoint]

theorem filterMap_columnTokens (hf : PassesOver f) (columns : List Column) :
    (columnTokens columns).filterMap f =
      (columns.flatMap Column.names).filterMap fun s => f (.name s) :=
  filterMap_list hf (by decide) (Column.filterMap_tokens hf) columns

theorem filterMap_keyTokens (hf : PassesOver f) (columns : List Column) :
    (keyTokens columns).filterMap f =
      (columns.flatMap Column.names).filterMap fun s => f (.name s) := by
  have hopen : f (.mark '(') = none := hf _ rfl
  have hclose : f (.mark ')') = none := hf _ rfl
  unfold keyTokens
  split
  · exact filterMap_columnTokens hf columns
  · simp [hopen, hclose, filterMap_columnTokens hf]

end Sql

variable {β : Type} {f : Token Literal → Option β}

theorem JoinCondition.filterMap_tokens (hf : PassesOver f) (c : JoinCondition) :
    c.tokens.filterMap f = c.names.filterMap fun s => f (.name s) := by
  have hequal : f (.word "=") = none := hf _ rfl
  simp [tokens, names, hequal, Column.filterMap_tokens hf]

theorem Join.filterMap_tokens (hf : PassesOver f) (j : Join) :
    j.tokens.filterMap f = j.names.filterMap fun s => f (.name s) := by
  have hjoin : f (.word "JOIN") = none := hf _ rfl
  have hon : f (.word "ON") = none := hf _ rfl
  have hconditions :
      (List.intercalate [.word "AND"] (j.conditions.map JoinCondition.tokens)).filterMap f =
        (j.conditions.flatMap JoinCondition.names).filterMap fun s => f (.name s) :=
    filterMap_list hf (by decide) (JoinCondition.filterMap_tokens hf) j.conditions
  simp [tokens, names, List.filterMap_cons, hjoin, hon, hconditions]

theorem KeyFilter.filterMap_tokens (hf : PassesOver f) (k : KeyFilter)
    (predicate : List (Token Literal)) :
    (k.tokens predicate).filterMap f =
      (k.names.filterMap fun s => f (.name s)) ++ predicate.filterMap f := by
  have hjoins : (k.joins.flatMap Join.tokens).filterMap f =
      (k.joins.flatMap Join.names).filterMap fun s => f (.name s) := by
    rw [List.filterMap_flatMap, List.filterMap_flatMap]
    exact List.flatMap_congr fun j _ => j.filterMap_tokens hf
  have hentity : [Token.name k.entity].filterMap f =
      [k.entity].filterMap fun s => f (.name s) := rfl
  have hwhere : f (.word "WHERE") = none := hf _ rfl
  have hin : f (.word "IN") = none := hf _ rfl
  have hselect : f (.word "SELECT") = none := hf _ rfl
  have hfrom : f (.word "FROM") = none := hf _ rfl
  have hopen : f (.mark '(') = none := hf _ rfl
  have hclose : f (.mark ')') = none := hf _ rfl
  simp only [tokens, names, List.filterMap_append, hentity, hjoins, filterMap_keyTokens hf,
    filterMap_columnTokens hf, List.filterMap_cons_none, List.filterMap_nil, hwhere, hin, hselect,
    hfrom, hopen, hclose, List.nil_append, List.append_nil, List.append_assoc]

/-- What is collected from the tokens of a plan comes from its names and from its predicate. -/
theorem Plan.filterMap_tokens (hf : PassesOver f) {plan : Plan} {predicate : List (Token Literal)}
    (h : plan.filter = none → predicate = []) :
    (plan.tokens predicate).filterMap f =
      (plan.names.filterMap fun s => f (.name s)) ++ predicate.filterMap f := by
  have hentity : [Token.name plan.entity].filterMap f =
      [plan.entity].filterMap fun s => f (.name s) := rfl
  have hselect : [Token.word "SELECT"].filterMap f = [] := List.filterMap_cons_none (hf _ rfl)
  have hfrom : [Token.word "FROM"].filterMap f = [] := List.filterMap_cons_none (hf _ rfl)
  simp only [tokens, names, List.filterMap_append, hselect, hfrom, hentity,
    filterMap_columnTokens hf, List.nil_append, List.append_assoc]
  cases hfilter : plan.filter with
  | none => simp [h hfilter]
  | some k => simp [k.filterMap_tokens hf]

namespace Filter

theorem keyword_of_mem_words {op : Operator} : ∀ w ∈ op.words, keywords.contains w = true := by
  cases op with
  | logical op | comparison op | range op | membership op => cases op <;> decide

theorem filterMap_operator (hf : PassesOver f) (op : Operator) : op.tokens.filterMap f = [] := by
  refine List.filterMap_eq_nil_iff.mpr fun t ht => ?_
  obtain ⟨w, hw, rfl⟩ := List.mem_map.mp ht
  exact hf _ (keyword_of_mem_words w hw)

theorem filterMap_group (hf : PassesOver f) (ts : List (Token Literal)) :
    (Token.mark '(' :: (ts ++ [Token.mark ')'])).filterMap f = ts.filterMap f := by
  have hopen : f (.mark '(') = none := hf _ rfl
  have hclose : f (.mark ')') = none := hf _ rfl
  simp [hopen, hclose]

mutual
/-- What is collected from the tokens of a filter comes from its operands. -/
theorem filterMap_tokens (hf : PassesOver f) : ∀ g : Filter,
    g.tokens.filterMap f = g.allOperands.flatMap fun x => x.tokens.filterMap f
  | .logical op children => by
    have hchildren := filterMap_groups hf children
    rw [allOperands_logical, ← hchildren]
    cases op with
    | and | or => exact filterMap_intercalate hf (by decide) (groups children)
    | not =>
      have hnot : f (.word "NOT") = none := hf _ rfl
      rw [tokens, logicalTokens]
      exact (List.filterMap_cons_none hnot).trans
        (filterMap_intercalate hf (List.forall_mem_nil _) (groups children))
  | .comparison op left right => by
    rw [allOperands_of_leaf rfl]
    simp [tokens, operands, filterMap_operator hf]
  | .range op subject low high => by
    have hand : f (.word "AND") = none := hf _ rfl
    rw [allOperands_of_leaf rfl]
    simp [tokens, operands, filterMap_operator hf, hand]
  | .membership op subject candidates => by
    have hopen : f (.mark '(') = none := hf _ rfl
    have hclose : f (.mark ')') = none := hf _ rfl
    have hcandidates : (List.intercalate [.mark ','] (candidates.map Operand.tokens)).filterMap f =
        candidates.flatMap fun x => x.tokens.filterMap f := by
      rw [filterMap_intercalate hf (by decide), List.flatMap_map]
    rw [allOperands_of_leaf rfl]
    simp [tokens, operands, filterMap_operator hf, hopen, hclose, hcandidates]

theorem filterMap_groups (hf : PassesOver f) : ∀ gs : List Filter,
    (groups gs).flatMap (List.filterMap f) =
      (gs.map allOperands).flatten.flatMap fun x => x.tokens.filterMap f
  | [] => rfl
  | g :: gs => by
    rw [groups, List.flatMap_cons, filterMap_group hf, filterMap_tokens hf g,
      filterMap_groups hf gs, List.map_cons, List.flatten_cons, List.flatMap_append]
end

/-- The columns of a filter from left to right. -/
def columns (g : Filter) : List Column := g.allOperands.filterMap Operand.column?

theorem names_operands (operands : List Operand) :
    (operands.flatMap fun x => x.tokens.filterMap Token.name?) =
      (operands.filterMap Operand.column?).flatMap Column.names := by
  induction operands with
  | nil => rfl
  | cons operand operands ih =>
    rw [List.flatMap_cons, ih]
    cases operand <;> rfl

end Filter

/-! ## Statements -/

namespace Sql

/-- A token that has no place in a statement. -/
def Token.stray? {π : Type} (t : Token π) : Option Unit :=
  if t.fixed || t.name?.isSome || t.placeholder?.isSome then none else some ()

theorem passesOver_name? : PassesOver Token.name? := by
  intro t ht
  cases t with
  | name s => cases ht
  | placeholder | word | mark | unclosed => rfl

theorem passesOver_placeholder? : PassesOver Token.placeholder? := by
  intro t ht
  cases t with
  | placeholder value => cases ht
  | name | word | mark | unclosed => rfl

theorem passesOver_stray? : PassesOver Token.stray? := by
  intro t ht
  simp [Token.stray?, ht]

theorem filterMap_number {β : Type} {f : Token Literal → Option β} {g : Token Nat → Option β}
    (h : ∀ t n, g (t.map fun _ => n) = f t) (first : UInt64) (ts : List (Token Literal)) :
    (number first ts).filterMap g = ts.filterMap f := by
  induction ts generalizing first with
  | nil => rfl
  | cons t ts ih => rw [number, List.filterMap_cons, List.filterMap_cons, h, ih]

end Sql

namespace Plan

/-- A text that is read as the clauses of a plan over a filter, whatever the names in them. -/
structure ReadAs (plan : Plan) (filter : Option Filter) (text : String) : Prop where
  tokens : Sql.tokens text =
    number Planner.firstPlaceholder (plan.tokens ((filter.map Filter.tokens).getD []))
  /-- The names are those of the plan and of the columns of the filter, in order. -/
  names : (Sql.tokens text).filterMap Token.name? =
    plan.names ++ ((filter.map Filter.columns).getD []).flatMap Column.names
  /-- The placeholders count the literals, as far as there are numbers for them. -/
  placeholders : plan.binds.length < UInt64.size →
    Sql.placeholders text = List.range' 1 plan.binds.length
  /-- All other tokens are fixed words and marks. -/
  fixed : ∀ t ∈ Sql.tokens text, t.name? = none → t.placeholder? = none → t.fixed = true

theorem sql_eq_body {plan : Plan} (h : plan.ctes ≠ []) :
    plan.sql = "WITH " ++ ", ".intercalate plan.ctes ++ " " ++ plan.body := by
  rw [sql_eq h, body, selectSql, sourceSql, Text.separated_eq_intercalate]
  cases plan.filter with
  | none => simp [String.intercalate_cons_cons, String.append_assoc]
  | some k => simp [String.intercalate_cons_cons, String.append_assoc]

variable {q : Query} {shared : Option SharedFilter} {t : Tree} {config : Config} {name : String}
  {plan : Plan}

/-- The plan has a subquery exactly if the query has a filter, and its predicate is written as the
tokens of the filter. -/
theorem predicate_written (hshared : Shares q.filter shared)
    (h : ofQuery t config name q shared = .ok plan) :
    (plan.filter = none → (q.filter.map Filter.tokens).getD [] = []) ∧
      ∀ k, plan.filter = some k →
        Writes Planner.firstPlaceholder k.predicate ((q.filter.map Filter.tokens).getD []) := by
  obtain ⟨entity, attributes, segments, ctes, -, -, -, -, -, -, -, hnone, hsome⟩ := ofQuery_cases h
  generalize q.filter = filter at hshared
  cases hshared with
  | unfiltered =>
    refine ⟨fun _ => rfl, fun k hk => ?_⟩
    rw [(hnone rfl).1] at hk
    cases hk
  | @filtered f compiled hcompile =>
    obtain ⟨joins, -, hfilter⟩ := hsome _ rfl
    refine ⟨fun hno => ?_, fun k hk => ?_⟩
    · rw [hfilter] at hno
      cases hno
    · obtain rfl := Option.some.inj (hfilter.symm.trans hk)
      have hexpand : f.expand Planner.firstPlaceholder = .ok compiled := by
        rw [← Filter.compile_eq_expand, hcompile]
      exact Filter.expand_writes f hexpand

/-- The literals among the tokens of a plan are those of the query. -/
theorem values_tokens (h : plan.filter = none → (q.filter.map Filter.tokens).getD [] = []) :
    values (plan.tokens ((q.filter.map Filter.tokens).getD [])) = q.literals := by
  have hnames : (plan.names.filterMap fun s => (Token.name s : Token Literal).placeholder?) = [] :=
    List.filterMap_eq_nil_iff.mpr fun _ _ => rfl
  rw [values, filterMap_tokens passesOver_placeholder? h, hnames, List.nil_append, Query.literals]
  cases q.filter with
  | none => rfl
  | some f => exact Filter.values_tokens f

theorem body_readAs (hshared : Shares q.filter shared)
    (h : ofQuery t config name q shared = .ok plan) (hbinds : plan.binds = q.literals) :
    plan.ReadAs q.filter plan.body := by
  obtain ⟨hnone, hwritten⟩ := predicate_written hshared h
  have htokens := (body_writes hwritten).tokens_eq
  constructor
  case tokens => exact htokens
  case names =>
    have hsame : ∀ (u : Token Literal) (n : Nat), (u.map fun _ => n).name? = u.name? := by
      intro u n
      cases u <;> rfl
    have hnames : (plan.names.filterMap fun s => (Token.name s : Token Literal).name?) =
        plan.names := List.filterMap_some
    rw [htokens, filterMap_number hsame, filterMap_tokens passesOver_name? hnone, hnames]
    cases q.filter with
    | none => rfl
    | some f =>
      have hcolumns : f.tokens.filterMap Token.name? = f.columns.flatMap Column.names := by
        rw [Filter.filterMap_tokens passesOver_name?, Filter.names_operands, Filter.columns]
      exact congrArg (plan.names ++ ·) hcolumns
  case placeholders =>
    intro hsize
    have hvalues := values_tokens hnone
    rw [Sql.placeholders, htokens]
    change values (number _ _) = _
    rw [values_number, hvalues, ← hbinds, List.range'_eq_map_range]
    refine List.map_congr_left fun k hk => ?_
    have hlt : k < plan.binds.length := List.mem_range.mp hk
    apply toNat_add_ofNat
    change 1 + k < UInt64.size
    omega
  case fixed =>
    have hsame : ∀ (u : Token Literal) (n : Nat), (u.map fun _ => n).stray? = u.stray? := by
      intro u n
      cases u <;> rfl
    have hnames : (plan.names.filterMap fun s => (Token.name s : Token Literal).stray?) = [] :=
      List.filterMap_eq_nil_iff.mpr fun _ _ => rfl
    have hstray : (Sql.tokens plan.body).filterMap Token.stray? = [] := by
      rw [htokens, filterMap_number hsame, filterMap_tokens passesOver_stray? hnone, hnames]
      cases q.filter with
      | none => rfl
      | some f =>
        refine (Filter.filterMap_tokens passesOver_stray? f).trans ?_
        refine List.flatMap_eq_nil_iff.mpr fun operand _ => ?_
        cases operand <;> rfl
    intro u hu hname hplaceholder
    have hnot := List.filterMap_eq_nil_iff.mp hstray u hu
    simpa [Token.stray?, hname, hplaceholder] using hnot

end Plan

namespace Planner

variable {p : Planner} {q : Query}

/-- **No name is ever read as anything but a name.** Behind the prologue of table expressions, every
statement of an answer is read as the tokens of its plan: the names of the plan and of the columns
of the filter in their order, a placeholder for each literal, counted from one, and fixed words and
marks around them, no matter what the entities, attributes, keys and synthetic columns are called.
Placeholders are numbered by words of 64 bits, and no memory holds as many literals as there are
words. -/
theorem names_stay_names {s : Schema} {config : Config} (hp : ofSchema s config = .ok p)
    (earlier : List Query) (hv : q.violation? s = none) :
    ∃ statements, ((p.after earlier).answer q).1 = .ok statements ∧
      statements.map Prod.fst = q.select.keys ∧
      ∀ entry ∈ statements, ∃ shared plan text, Shares q.filter shared ∧
        Plan.ofQuery p.tree p.config entry.1 q shared = .ok plan ∧ entry.2 = plan.statement ∧
        entry.2.sql = "WITH " ++ ", ".intercalate plan.ctes ++ " " ++ text ∧
        plan.ReadAs q.filter text := by
  obtain ⟨rfl, -, coherent⟩ := ofSchema_spec hp
  obtain ⟨htree, hconfig, coherent⟩ := after_sameService coherent earlier
  have hv' : q.violation? (p.after earlier).tree.schema = none := by rw [htree, hv]
  obtain ⟨statements, hrun, hkeys, hbinds⟩ := exists_answer coherent hv'
  refine ⟨statements, hrun, hkeys, fun entry hentry => ?_⟩
  obtain ⟨shared, hshared, hentries⟩ := answer_cases coherent hrun
  obtain ⟨plan, hplan, hstatement⟩ := hentries entry hentry
  rw [htree, hconfig] at hplan
  have hname : entry.1 ∈ q.select.keys := hkeys ▸ List.mem_map_of_mem hentry
  obtain ⟨scope, hscope⟩ := Plan.inScope_of_ofQuery hv hshared (Query.select_known hv _ hname) hplan
  have hctes : plan.ctes ≠ [] := by
    intro hnil
    have hprologue := hscope.prologue
    have hstarts := hscope.starts
    rw [hnil] at hprologue
    cases hprologue
    cases hstarts
  have hliterals : plan.binds = q.literals := by
    rw [← hbinds entry hentry, hstatement]
    rfl
  refine ⟨shared, plan, plan.body, hshared, hplan, hstatement, ?_, ?_⟩
  · rw [hstatement]
    exact Plan.sql_eq_body hctes
  · exact Plan.body_readAs hshared hplan hliterals

end Planner

/-- Entities and columns that are named like the text around them. -/
def Schema.disguised : Schema where
  entities := .ofList
    [("\"", ⟨.ofList ["\" = :1"], ["", "id\""], .empty, "first"⟩),
     (") OR (", ⟨.ofList [":1"], ["\"\""],
       .ofList [("\"", ⟨["a.b", "\","], ["", "id\""]⟩)], "second"⟩)]

def Tree.disguised : Tree := ⟨.disguised, by decide +kernel⟩

/-- Both entities, one of them under a condition on the other. -/
def Query.disguised : Query where
  select := .ofList [(") OR (", .ofList [":1"]), ("\"", .empty)]
  filter := some (.comparison .like (.column "\"" "\" = :1") (.literal (.text "\"")))

theorem Query.disguised_valid : Query.disguised.violation? .disguised = none := by
  rw [Query.violation?_eq_head?]
  decide +kernel

theorem Planner.disguised_names_stay_names :
    ∃ statements, ((new .disguised ⟨"\"", "", true⟩).answer .disguised).1 = .ok statements ∧
      statements.map Prod.fst = [") OR (", "\""] ∧
      ∀ entry ∈ statements, ∃ shared plan text, Shares Query.disguised.filter shared ∧
        Plan.ofQuery .disguised ⟨"\"", "", true⟩ entry.1 .disguised shared = .ok plan ∧
        entry.2 = plan.statement ∧
        entry.2.sql = "WITH " ++ ", ".intercalate plan.ctes ++ " " ++ text ∧
        plan.ReadAs Query.disguised.filter text :=
  names_stay_names (ofSchema_tree .disguised ⟨"\"", "", true⟩) [] Query.disguised_valid

end TreeQuery
