import TreeQuery.Proofs.StatementTokens

/-!
# Names that delimit themselves

A quoted name ends at the first quote that is not doubled, so that nothing behind it is taken for a
part of it, and no part of it for what stands behind. Whatever the names that a column, a list of
columns or a key is made of, its text is the text of no other.

* `quoteName_append_inj`: a quoted name and what follows it are known from the text of both;
* `columnsOf_sql`, `columnsOf_columnList`, `columnsOf_keyValue`: the columns that a text is read as;
* `text_inj`: a text that is read as its columns is the text of no others;
* `names_delimit_themselves`: names, columns, lists and keys are known from their texts.
-/

namespace TreeQuery.Sql

variable {a b s t entity entity' : String} {names names' : List String} {columns : List Column}

/-- A quoted name and what follows it are known from the text of both. -/
theorem quoteName_append_inj (hs : s.toList.head? ≠ some '"') (ht : t.toList.head? ≠ some '"') :
    quoteName a ++ s = quoteName b ++ t ↔ a = b ∧ s = t := by
  constructor
  · intro h
    have hread : .name a :: scan .between s.toList = .name b :: scan .between t.toList := by
      rw [← scan_quoteName a hs, ← scan_quoteName b ht, ← String.toList_append, h,
        String.toList_append]
    obtain ⟨hname, -⟩ := List.cons.inj hread
    obtain rfl := Token.name.inj hname
    exact ⟨rfl, (String.append_right_inj _).mp h⟩
  · rintro ⟨rfl, rfl⟩
    rfl

/-- A quote behind the name would go on with it. -/
example : quoteName "a" ++ quoteName "b" = quoteName "a\"b" := by decide

/-! ## Columns -/

/-- A column as an operand. -/
def Column.operand (c : Column) : Operand := .column c.entity c.name

/-- The columns that a text without literals is read as. -/
theorem Phrase.columnsOf_eq {ts : List (Token Literal)} (h : Phrase s ts)
    (hlists : Filter.Lists ts (columns.map Column.operand)) : columnsOf (tokens s) = columns := by
  have hback : (columns.map Column.operand).filterMap Operand.column? = columns := by
    rw [List.filterMap_map]
    exact List.filterMap_some
  rw [(h.writes 0).tokens_eq, columnsOf_number, hlists.operandsOf_eq, hback]

theorem lists_columnTokens (columns : List Column) :
    Filter.Lists (columnTokens columns) (columns.map Column.operand) := by
  have hoperands := Filter.lists_operands (columns.map Column.operand)
  rwa [List.map_map] at hoperands

theorem lists_keyTokens (columns : List Column) :
    Filter.Lists (keyTokens columns) (columns.map Column.operand) := by
  unfold keyTokens
  split
  · exact lists_columnTokens columns
  · exact (lists_columnTokens columns).group

theorem columnsOf_sql (c : Column) : columnsOf (tokens c.sql) = [c] :=
  c.phrase.columnsOf_eq (Filter.lists_operand c.operand)

theorem columnsOf_columnList (entity : String) (names : List String) :
    columnsOf (tokens (columnList entity names)) = names.map (Column.mk entity) :=
  (phrase_columnList entity names).columnsOf_eq (lists_columnTokens _)

/-- The parentheses around a key of several columns are no part of them. -/
theorem columnsOf_keyValue (entity : String) (names : List String) :
    columnsOf (tokens (keyValue entity names)) = names.map (Column.mk entity) :=
  (phrase_key entity names).columnsOf_eq (lists_keyTokens _)

/-! ## Texts of columns -/

theorem map_mk_inj (hne : names ≠ []) :
    names.map (Column.mk entity) = names'.map (Column.mk entity') ↔
      entity = entity' ∧ names = names' := by
  constructor
  · intro h
    have hnames : (names.map (Column.mk entity)).map Column.name =
        (names'.map (Column.mk entity')).map Column.name := congrArg _ h
    have hback : ∀ e, Column.name ∘ Column.mk e = id := fun _ => rfl
    rw [List.map_map, List.map_map, hback, hback, List.map_id, List.map_id] at hnames
    subst hnames
    obtain ⟨name, rest, rfl⟩ := List.exists_cons_of_ne_nil hne
    obtain ⟨hfirst, -⟩ := List.cons.inj h
    exact ⟨(Column.mk.inj hfirst).1, rfl⟩
  · rintro ⟨rfl, rfl⟩
    rfl

/-- A text that is read as the columns it is made of is the text of no others. Only a text without
columns does not tell their entity. -/
theorem text_inj {text : String → List String → String}
    (hread : ∀ entity names, columnsOf (tokens (text entity names)) = names.map (Column.mk entity))
    (hne : names ≠ []) :
    text entity names = text entity' names' ↔ entity = entity' ∧ names = names' := by
  constructor
  · intro h
    have hcolumns : names.map (Column.mk entity) = names'.map (Column.mk entity') := by
      rw [← hread entity names, ← hread entity' names', h]
    exact (map_mk_inj hne).mp hcolumns
  · rintro ⟨rfl, rfl⟩
    rfl

/-- **Quoted names delimit themselves.** A quoted name is known from any text that it starts, as
long as no quote follows it. Hence a column is known from its text, and so are the entity and the
columns of a list or of a key that has any. A key of one column is never written like a key of
several, whatever quotes, points, commas or parentheses there are in the names. -/
theorem names_delimit_themselves :
    (∀ a b s t : String, s.toList.head? ≠ some '"' → t.toList.head? ≠ some '"' →
      (quoteName a ++ s = quoteName b ++ t ↔ a = b ∧ s = t)) ∧
    (∀ c d : Column, c.sql = d.sql ↔ c = d) ∧
    (∀ (entity entity' : String) (names names' : List String), names ≠ [] →
      (columnList entity names = columnList entity' names' ↔ entity = entity' ∧ names = names') ∧
      (keyValue entity names = keyValue entity' names' ↔ entity = entity' ∧ names = names')) ∧
    ∀ (entity entity' name : String) (names : List String), names.length ≠ 1 →
      keyValue entity [name] ≠ keyValue entity' names := by
  refine ⟨fun a b s t => quoteName_append_inj, fun c d => ⟨fun h => ?_, congrArg _⟩, ?_, ?_⟩
  · have hcolumns : [c] = [d] := by rw [← columnsOf_sql c, ← columnsOf_sql d, h]
    exact List.singleton_inj.mp hcolumns
  · intro entity entity' names names' hne
    exact ⟨text_inj columnsOf_columnList hne, text_inj columnsOf_keyValue hne⟩
  · intro entity entity' name names hlength h
    obtain ⟨-, rfl⟩ := (text_inj columnsOf_keyValue (List.cons_ne_nil name [])).mp h
    exact hlength rfl

/-- Names that hold the text between two others. -/
theorem separators_delimited :
    quoteName "a\"" ++ ", \"" ≠ quoteName "a" ++ ", \"\"" ∧
    Column.sql ⟨"a\".\"b", "c"⟩ ≠ Column.sql ⟨"a", "b\".\"c"⟩ ∧
    columnList "T" ["a\", \"T\".\"b"] ≠ columnList "T" ["a", "b"] ∧
    keyValue "T" ["a", "b\", \"T\".\"c"] ≠ keyValue "T" ["a\", \"T\".\"b", "c"] ∧
    keyValue "(\"T" ["a\", \"T\".\"b\")"] ≠ keyValue "T" ["a", "b"] := by
  obtain ⟨hnames, hcolumns, hlists, hkeys⟩ := names_delimit_themselves
  refine ⟨fun h => ?_, fun h => ?_, fun h => ?_, fun h => ?_, hkeys _ _ _ _ (by decide)⟩
  · exact absurd ((hnames _ _ _ _ (by decide) (by decide)).mp h) (by decide)
  · exact absurd ((hcolumns _ _).mp h) (by decide)
  · exact absurd ((hlists _ _ _ _ (by decide)).1.mp h) (by decide)
  · exact absurd ((hlists _ _ _ _ (by decide)).2.mp h) (by decide)

end TreeQuery.Sql
