import TreeQuery.Proofs.JsonCodecs
import TreeQuery.Proofs.JsonRecords
import TreeQuery.Proofs.WrittenFilters
import TreeQuery.Query.Document

/-!
# Queries written and read

The text of a query is read back field by field: the selection as lists of names, the filter in the
form in which filters are exchanged, its literals by their kinds.

* `Operand.ofJson?_toJson`, `Filter.ofJson_toJson`: the documents of operands and of filters of
  admitted shape are read as they were, filters within their nesting;
* `Filter.all_toJson`, `Query.all_toJson`: what the documents of filters and of queries are made of;
* `Query.query_comes_back`: a query comes back through any codec that keeps what it is made of.
-/

namespace TreeQuery

open Json (Value)
open Markup

/-! ## Operands -/

theorem Literal.ofNumber?_integer (n : Int64) :
    Literal.ofNumber? (.integer n.toInt) = some (.integer n) := by
  rw [ofNumber?, if_pos ⟨Int64.minValue_le_toInt n, Int64.toInt_le n⟩, Int64.ofInt_toInt]

/-- The document of an operand is read as the operand, a number by its bits. -/
theorem Operand.ofJson?_toJson (operand : Operand) : ofJson? operand.toJson = some operand := by
  cases operand with
  | column entity name =>
    simp [ofJson?, toJson, exactFields?, fields?, namedFields?, entries?, text?]
  | literal value =>
    cases value with
    | text s => rfl
    | null => rfl
    | float x => rfl
    | integer n =>
      change (Literal.ofNumber? (.integer n.toInt)).map Operand.literal = _
      rw [Literal.ofNumber?_integer, Option.map_some]

section

variable {json : Json.Codec}

theorem Literal.keeps_toJson (strings : json.KeepsStrings) (scalars : json.KeepsScalars)
    (value : Literal) (floats : ∀ x, value = .float x → json.Keeps (.number (.float x))) :
    json.Keeps value.toJson := by
  cases value with
  | text s => exact strings s
  | integer n => exact scalars.integer n
  | float x => exact floats x rfl
  | null => exact scalars.null

theorem Operand.all_toJson (strings : json.KeepsStrings) (scalars : json.KeepsScalars)
    (operand : Operand)
    (floats : ∀ x, operand.literal? = some (.float x) → json.Keeps (.number (.float x))) :
    operand.toJson.All json.Keeps := by
  cases operand with
  | column entity name => exact ⟨strings entity, strings name, trivial⟩
  | literal value =>
    have kept := value.keeps_toJson strings scalars fun x hx => floats x (congrArg some hx)
    cases value <;> exact kept

end

/-! ## Filters -/

namespace WrittenFilter

theorem ofJson?_filters {depth : Nat} {items : List Value} {filters : List WrittenFilter}
    (h : items.mapM (ofJson? depth) = some filters) (token : String) :
    ofJson? (depth + 1) (.object [("op", .string token), ("filters", .array items)]) =
      some (.node token (some filters) none) := by
  simp [ofJson?, exactFields?, fields?, namedFields?, entries?, text?, optionalItems?, items?, h]

theorem ofJson?_operands {items : List Value} {operands : List Operand}
    (h : items.mapM Operand.ofJson? = some operands) (depth : Nat) (token : String) :
    ofJson? (depth + 1) (.object [("op", .string token), ("variables", .array items)]) =
      some (.node token none (some operands)) := by
  simp [ofJson?, exactFields?, fields?, namedFields?, entries?, text?, optionalItems?, items?, h]

end WrittenFilter

namespace Filter

variable {f : Filter}

/-- Induction over the nodes that have no children, and over the children of a logical node. -/
theorem inductionOn {motive : Filter → Prop}
    (leaf : ∀ f : Filter, f.operator.isLogical = false → motive f)
    (logical : ∀ op fs, (∀ f ∈ fs, motive f) → motive (.logical op fs)) (f : Filter) :
    motive f := by
  cases f with
  | logical op fs => exact logical op fs fun f _ => inductionOn leaf logical f
  | comparison | range | membership => exact leaf _ rfl

theorem toJson_logical (op : LogicalOp) (fs : List Filter) :
    (logical op fs).toJson =
      .object [("op", .string op.sql), ("filters", .array (fs.map toJson))] := by
  have hitems : WrittenFilter.allToJson (toAllWritten fs) = fs.map toJson := by
    induction fs with
    | nil => rfl
    | cons f fs ih => rw [toAllWritten, WrittenFilter.allToJson, ih, List.map_cons, toJson]
  rw [← hitems]
  rfl

theorem toJson_leaf (h : f.operator.isLogical = false) :
    f.toJson = .object [("op", .string f.operator.sql),
      ("variables", .array (f.operands.map Operand.toJson))] := by
  rw [toJson, toWritten_leaf h]
  rfl

theorem exists_toJson_eq (f : Filter) :
    ∃ name items, f.toJson = .object [("op", .string f.operator.sql), (name, .array items)] := by
  induction f using inductionOn with
  | leaf f hleaf => exact ⟨_, _, toJson_leaf hleaf⟩
  | logical op fs _ => exact ⟨_, _, toJson_logical op fs⟩

theorem literals_of_mem {op : LogicalOp} {fs : List Filter} {child : Filter} (h : child ∈ fs)
    {value : Literal} (hvalue : value ∈ child.literals) : value ∈ (logical op fs).literals := by
  obtain ⟨operand, hoperand, hliteral⟩ := List.mem_filterMap.mp hvalue
  refine List.mem_filterMap.mpr ⟨operand, ?_, hliteral⟩
  rw [allOperands_logical]
  exact List.mem_flatten.mpr ⟨_, List.mem_map.mpr ⟨child, h, rfl⟩, hoperand⟩

/-- The document of a filter is made of strings and of its literals. -/
theorem all_toJson {json : Json.Codec} (strings : json.KeepsStrings) (scalars : json.KeepsScalars)
    (f : Filter) (floats : ∀ x, .float x ∈ f.literals → json.Keeps (.number (.float x))) :
    f.toJson.All json.Keeps := by
  induction f using inductionOn with
  | leaf f hleaf =>
    have hoperands : ∀ operand ∈ f.operands, operand.toJson.All json.Keeps := by
      refine fun operand hoperand => operand.all_toJson strings scalars fun x hx => floats x ?_
      rw [literals_of_leaf (nodes_leaf hleaf)]
      exact List.mem_filterMap.mpr ⟨operand, hoperand, hx⟩
    rw [toJson_leaf hleaf]
    exact ⟨strings _, Json.all_array_map hoperands, trivial⟩
  | logical op fs ih =>
    have hchildren : ∀ child ∈ fs, child.toJson.All json.Keeps := fun child hchild =>
      ih child hchild fun x hx => floats x (literals_of_mem hchild hx)
    rw [toJson_logical]
    exact ⟨strings _, Json.all_array_map hchildren, trivial⟩

/-- The document of a filter is read in its written form, if its nesting is allowed. -/
theorem ofJson?_toJson (f : Filter) (depth : Nat) (h : f.toJson.nesting < depth) :
    WrittenFilter.ofJson? depth f.toJson = some f.toWritten := by
  induction f using inductionOn generalizing depth with
  | leaf f hleaf =>
    obtain ⟨depth, rfl⟩ := Nat.exists_eq_succ_of_ne_zero (Nat.ne_zero_of_lt h)
    have hoperands : (f.operands.map Operand.toJson).mapM Operand.ofJson? = some f.operands :=
      mapM_map_write fun operand _ => operand.ofJson?_toJson
    rw [toJson_leaf hleaf, toWritten_leaf hleaf]
    exact WrittenFilter.ofJson?_operands hoperands depth f.operator.sql
  | logical op fs ih =>
    obtain ⟨depth, rfl⟩ := Nat.exists_eq_succ_of_ne_zero (Nat.ne_zero_of_lt h)
    rw [toJson_logical] at h
    have hchildren : (fs.map toJson).mapM (WrittenFilter.ofJson? depth) =
        some (fs.map toWritten) := by
      -- A child stands two levels further in, of which its reader is told one.
      refine mapM_map_eq_some fun child hchild => ih child hchild depth ?_
      have hle : child.toJson.nesting ≤ Json.nestingItems (fs.map toJson) :=
        Json.nestingItems_le_iff.mp (Nat.le_refl _) _ (List.mem_map_of_mem hchild)
      simp only [Value.nesting, Json.nestingMembers] at h
      omega
    rw [toJson_logical, toWritten, toAllWritten_eq]
    exact WrittenFilter.ofJson?_filters hchildren op.sql

/-- The document of a filter of admitted shape is read as the filter, if its nesting is allowed. -/
theorem ofJson_toJson {limit : Nat}
    (shaped : ∀ node ∈ f.nodes, node.operator.arity.admits node.count = true)
    (h : f.toJson.nesting ≤ limit) : ofJson limit f.toJson = .ok f := by
  have hfaults : f.faults = [] := faults_eq_nil_iff.mpr shaped
  rw [ofJson, if_neg (Nat.not_lt.mpr h), ofJson?_toJson f (limit + 1) (Nat.lt_succ_of_le h)]
  dsimp only
  rw [ofWritten_toWritten, hfaults]
  rfl

end Filter

/-! ## Queries -/

namespace Query

theorem selectionOfJson?_strings (names : OrderedSet String) :
    selectionOfJson? (.strings names.toList) = some names := by
  rw [selectionOfJson?, texts?_strings]
  exact congrArg some names.ofList_toList

theorem filterOfJson_toJson {f : Filter}
    (shaped : ∀ node ∈ f.nodes, node.operator.arity.admits node.count = true)
    (h : f.toJson.nesting ≤ Json.nestingLimit - 1) :
    filterOfJson f.toJson = .ok (some f) := by
  have hread := Filter.ofJson_toJson shaped h
  obtain ⟨name, items, hobject⟩ := f.exists_toJson_eq
  rw [hobject] at hread ⊢
  rw [filterOfJson, hread]
  · rfl
  · exact fun h => by cases h

theorem readAll_fields {v w : Value} {select : OrderedMap String (OrderedSet String)}
    {filter : Option Filter} (hselect : map? selectionOfJson? v = some select)
    (hfilter : filterOfJson w = .ok filter) :
    QueryFields.readAll [("select", v), ("filter", w)] true = .ok ⟨select, filter⟩ := by
  have htake : QueryFields.take .empty ("select", v) = .ok ⟨some select, none⟩ := by
    rw [QueryFields.take, hselect]
    rfl
  have htake' : QueryFields.take ⟨some select, none⟩ ("filter", w) =
      .ok ⟨some select, some filter⟩ := by
    rw [QueryFields.take, hfilter]
    rfl
  have hfields : [("select", v), ("filter", w)].foldlM QueryFields.take .empty =
      .ok ⟨some select, some filter⟩ := by
    rw [List.foldlM_cons, htake]
    change [("filter", w)].foldlM QueryFields.take _ = _
    rw [List.foldlM_cons, htake']
    rfl
  rw [QueryFields.readAll, hfields]
  rfl

/-- The document of a query, with the filter of a query that has none as null. -/
theorem toJson_eq (select : OrderedMap String (OrderedSet String)) (filter : Option Filter) :
    toJson ⟨select, filter⟩ =
      .object [("select", .object (select.entries.map fun e => (e.1, .strings e.2.toList))),
        ("filter", (filter.map Filter.toJson).getD .null)] := rfl

/-- The document of a query is made of strings, the literals of its filter, and null. -/
theorem all_toJson {json : Json.Codec} (strings : json.KeepsStrings) (scalars : json.KeepsScalars)
    (q : Query) (floats : ∀ f ∈ q.filter, ∀ x, .float x ∈ f.literals →
      json.Keeps (.number (.float x))) : q.toJson.All json.Keeps := by
  obtain ⟨select, filter⟩ := q
  let write (names : OrderedSet String) : Value := .strings names.toList
  have hselect : (Value.object (select.entries.map fun e => (e.1, write e.2))).All json.Keeps :=
    Json.all_object_map fun e _ => Json.all_strings strings e.2.toList
  have hfilter : ((filter.map Filter.toJson).getD .null).All json.Keeps := by
    cases filter with
    | none => exact scalars.null
    | some f => exact f.all_toJson strings scalars (floats f rfl)
  exact ⟨hselect, hfilter, trivial⟩

/-- The filter of the document of a query, be there one or not, is read as it was. -/
theorem filterOfJson_getD {select : OrderedMap String (OrderedSet String)} {filter : Option Filter}
    (shaped : ∀ f ∈ filter, ∀ node ∈ f.nodes, node.operator.arity.admits node.count = true)
    (nested : (toJson ⟨select, filter⟩).nesting ≤ Json.nestingLimit) :
    filterOfJson ((filter.map Filter.toJson).getD .null) = .ok filter := by
  cases filter with
  | none => rfl
  | some f =>
    refine filterOfJson_toJson (shaped f rfl) ?_
    simp only [toJson_eq, Option.map_some, Option.getD_some, Value.nesting,
      Json.nestingMembers] at nested
    omega

/-- **A query comes back from its text**, through every codec that keeps order, strings, integers
and the floating-point numbers in the query, if these are finite, every node of the filter has a
number of parts that its operator admits, and the text does not nest too deeply. The selected
entities, their attributes, and the children and operands of the filter come back in their order,
and numbers by their bits; where there is no filter, none comes back. -/
theorem query_comes_back {json : Json.Codec} {q : Query} (order : json.KeepsOrder)
    (strings : json.KeepsStrings) (scalars : json.KeepsScalars)
    (floats : ∀ f ∈ q.filter, ∀ x, .float x ∈ f.literals → json.KeepsFloat x)
    (shaped : ∀ f ∈ q.filter, ∀ node ∈ f.nodes, node.operator.arity.admits node.count = true)
    (finite : ∀ f ∈ q.filter, ∀ x, .float x ∈ f.literals → x.isFinite = true)
    (nested : q.toJson.nesting ≤ 127) : read (json.write q.toJson) json = .ok q := by
  have kept : json.Keeps q.toJson := order.keeps strings q.toJson nested <|
    q.all_toJson strings scalars fun f hf x hx => floats f hf x hx (finite f hf x hx)
  obtain ⟨select, filter⟩ := q
  let write (names : OrderedSet String) : Value := .strings names.toList
  have hselect := map?_object write select fun e _ => selectionOfJson?_strings e.2
  rw [read, kept.read_write]
  exact readAll_fields hselect (filterOfJson_getD shaped nested)

/-- Names and texts that need escapes, an entity without attributes, the least integer, minus zero,
one, and the smallest floating-point number. -/
def peculiar : Query where
  select := .ofList [("a \"b\" \\", .ofList ["tab\t", "\x01/"]), ("", .empty)]
  filter := some (.logical .not [.logical .or [
    .membership .among (.column "a \"b\" \\" "tab\t")
      [.literal (.integer Int64.minValue), .literal (.float ⟨0x8000000000000000⟩), .literal .null],
    .range .between (.literal (.text "100%\n")) (.literal (.float ⟨1⟩))
      (.literal (.float ⟨0x3FF0000000000000⟩))]])

theorem peculiar_comes_back :
    Json.Codec.standard.KeepsOrder ∧ Json.Codec.standard.KeepsStrings ∧
      Json.Codec.standard.KeepsScalars ∧ (∀ x, Json.Codec.standard.KeepsFloat x) ∧
      read peculiar.toJson.compact = .ok peculiar := by
  refine ⟨Json.Codec.standard_keepsOrder, Json.Codec.standard_keepsStrings,
    Json.Codec.standard_keepsScalars, Json.Codec.standard_keepsFloat, ?_⟩
  refine query_comes_back Json.Codec.standard_keepsOrder Json.Codec.standard_keepsStrings
    Json.Codec.standard_keepsScalars (fun _ _ x _ => Json.Codec.standard_keepsFloat x) ?_ ?_
    (by decide)
  · rintro f ⟨⟩
    decide
  · rintro f ⟨⟩ x hx
    change Literal.float x ∈ [Literal.integer Int64.minValue, .float ⟨0x8000000000000000⟩, .null,
      .text "100%\n", .float ⟨1⟩, .float ⟨0x3FF0000000000000⟩] at hx
    simp only [List.mem_cons, Literal.float.injEq, reduceCtorEq, false_or, List.not_mem_nil,
      or_false] at hx
    rcases hx with rfl | rfl | rfl <;> decide

end Query

end TreeQuery
