import TreeQuery.Proofs.FilterTokens

/-!
# Reading compiled filters back

A reader for the expressions that filters compile to, which puts the literals back into the places
of their placeholders. It goes through the tokens from left to right and holds the open parentheses
as a stack; what stands between two parentheses is read as soon as they close.

* `Filter.readSql`: the filter that an expression stands for;
* `Reads`: tokens that the reader turns into some parts, wherever they stand;
* `node?_parts`: the parts of a filter are those of no other;
* `compiled_reads_back`: a compiled filter is read back, and so no two filters compile alike.
-/

namespace TreeQuery

open Sql

/-! ## The reader -/

/-- What stands between two parentheses, as far as it is read. -/
inductive Piece
  | operand (operand : Operand)
  | word (w : String)
  | comma
  /-- A filter in parentheses. -/
  | filter (f : Filter)
  /-- Operands in parentheses. -/
  | operands (operands : List Operand)

/-- The operator that is spelled with some words. -/
def Operator.ofWords? (words : List String) : Option Operator := all.find? (·.words = words)

namespace Piece

/-- Operands with commas between them. -/
def operands? : List Piece → Option (List Operand)
  | [.operand x] => some [x]
  | .operand x :: .comma :: rest => (operands? rest).map (x :: ·)
  | _ => none

/-- The words that some parts begin with, and what comes behind them. -/
def leadingWords : List Piece → List String × List Piece
  | .word w :: rest => (w :: (leadingWords rest).1, (leadingWords rest).2)
  | rest => ([], rest)

/-- A node that takes operands. -/
def leaf? (subject : Operand) (parts : List Piece) : Option Filter :=
  match Operator.ofWords? (leadingWords parts).1, (leadingWords parts).2 with
  | some (.comparison op), [.operand right] => some (.comparison op subject right)
  | some (.range op), [.operand low, .word w, .operand high] =>
    if w = LogicalOp.and.sql then some (.range op subject low high) else none
  | some (.membership op), [.operands candidates] => some (.membership op subject candidates)
  | _, _ => none

/-- Filters with an operator between each two of them. -/
def chain? (op : LogicalOp) : List Piece → Option (List Filter)
  | [.filter f] => some [f]
  | .filter f :: .word w :: rest => if w = op.sql then (chain? op rest).map (f :: ·) else none
  | _ => none

/-- A node, whose nested filters are read already. -/
def node? : List Piece → Option Filter
  | [.word w, .filter f] => if w = LogicalOp.not.sql then some (.logical .not [f]) else none
  | .filter f :: .word w :: rest =>
    ([.and, .or].find? fun op : LogicalOp => op.sql = w).bind fun op =>
      (chain? op rest).map fun fs => .logical op (f :: fs)
  | .operand subject :: rest => leaf? subject rest
  | _ => none

/-- What stands in a pair of parentheses. -/
def group? (parts : List Piece) : Option Piece :=
  ((node? parts).map .filter).or ((operands? parts).map .operands)

/-- Reads on behind some parts, within the open parentheses around them. -/
def readOn (parts : List Piece) (outer : List (List Piece)) :
    List (Token Literal) → Option (List Piece)
  | [] => if outer.isEmpty then some parts else none
  | .name entity :: .mark '.' :: .name name :: rest =>
    readOn (parts ++ [.operand (.column entity name)]) outer rest
  | .placeholder value :: rest => readOn (parts ++ [.operand (.literal value)]) outer rest
  | .word w :: rest => readOn (parts ++ [.word w]) outer rest
  | .mark ',' :: rest => readOn (parts ++ [.comma]) outer rest
  | .mark '(' :: rest => readOn [] (parts :: outer) rest
  | .mark ')' :: rest =>
    match outer with
    | [] => none
    | before :: outer => (group? parts).bind fun part => readOn (before ++ [part]) outer rest
  | _ => none

end Piece

/-- A token with the value of a placeholder in its place, if there is one. -/
def Sql.Token.fill? {π ρ : Type} (value : π → Option ρ) : Token π → Option (Token ρ)
  | .name s => some (.name s)
  | .placeholder p => (value p).map .placeholder
  | .word s => some (.word s)
  | .mark c => some (.mark c)
  | .unclosed s => some (.unclosed s)

/-- The filter that some tokens stand for. -/
def Filter.ofTokens? (ts : List (Token Literal)) : Option Filter :=
  (Piece.readOn [] [] ts).bind Piece.node?

/-- The filter that an expression stands for, with given values for its placeholders. -/
def Filter.readSql (value : Nat → Option Literal) (text : String) : Option Filter :=
  ((Sql.tokens text).mapM (Token.fill? value)).bind Filter.ofTokens?

/-! ## Values for placeholders -/

namespace Sql

variable {ts us : List (Token Literal)} {first : UInt64}

/-- Numbered tokens are filled with the values that their numbers stand for. -/
theorem fill_number {value : Nat → Option Literal}
    (h : ∀ k < (values ts).length, value (first + UInt64.ofNat k).toNat = (values ts)[k]?) :
    (number first ts).mapM (Token.fill? value) = some ts := by
  induction ts generalizing first with
  | nil => rfl
  | cons t ts ih =>
    rw [values_cons] at h
    rw [number, List.mapM_cons]
    cases t with
    | placeholder v =>
      have hv : value first.toNat = some v := by
        simpa [Token.placeholder?] using h 0 (Nat.succ_pos _)
      have hrest : (number (first + 1) ts).mapM (Token.fill? value) = some ts := by
        apply ih
        intro k hk
        rw [add_one_add_ofNat]
        exact h (k + 1) (Nat.succ_lt_succ hk)
      simp [Token.map, Token.fill?, Token.placeholder?, hv, hrest]
    | name | word | mark | unclosed =>
      have hrest : (number first ts).mapM (Token.fill? value) = some ts := ih h
      simp [Token.map, Token.fill?, Token.placeholder?, hrest]

variable {t u : Token Literal} {n m : Nat}

theorem length_placeholder?_of_map_eq (h : t.map (fun _ => n) = u.map fun _ => m) :
    t.placeholder?.toList.length = u.placeholder?.toList.length := by
  cases t <;> cases u <;> first | rfl | cases h

theorem eq_of_map_eq (h : t.map (fun _ => n) = u.map fun _ => m)
    (hv : t.placeholder?.toList = u.placeholder?.toList) : t = u := by
  cases t with
  | placeholder v => cases u with
    | placeholder w => rw [List.singleton_inj.mp hv]
    | name | word | mark | unclosed => cases h
  | name | word | mark | unclosed => cases u <;> cases h; rfl

/-- Tokens are known from their values and the form in which they are written. -/
theorem number_injective {first' : UInt64} (hv : values ts = values us)
    (hn : number first ts = number first' us) : ts = us := by
  induction ts generalizing us first first' with
  | nil =>
    cases us with
    | nil => rfl
    | cons u us => cases hn
  | cons t ts ih =>
    cases us with
    | nil => cases hn
    | cons u us =>
      obtain ⟨hhead, htail⟩ := List.cons.inj hn
      rw [values_cons, values_cons] at hv
      obtain ⟨hvalue, hvalues⟩ := List.append_inj hv (length_placeholder?_of_map_eq hhead)
      rw [eq_of_map_eq hhead hvalue, ih hvalues htail]

end Sql

/-! ## Parts -/

namespace Piece

/-- Tokens that the reader turns into some parts, wherever they stand. -/
def Reads (ts : List (Token Literal)) (parts : List Piece) : Prop :=
  ∀ before outer rest, readOn before outer (ts ++ rest) = readOn (before ++ parts) outer rest

variable {ts ts' us : List (Token Literal)} {parts parts' gap : List Piece}

theorem Reads.nil : Reads [] [] := by
  intro before outer rest
  rw [List.append_nil, List.nil_append]

theorem Reads.append (h : Reads ts parts) (h' : Reads ts' parts') :
    Reads (ts ++ ts') (parts ++ parts') := by
  intro before outer rest
  rw [List.append_assoc, h, h', List.append_assoc]

theorem Reads.intercalate {tss : List (List (Token Literal))} {pss : List (List Piece)}
    (hgap : Reads us gap) (h : List.Forall₂ Reads tss pss) :
    Reads (us.intercalate tss) (gap.intercalate pss) :=
  forall₂_intercalate .nil Reads.append hgap h

theorem Reads.group {part : Piece} (h : Reads ts parts) (hpart : group? parts = some part) :
    Reads (.mark '(' :: (ts ++ [.mark ')'])) [part] := by
  intro before outer rest
  rw [List.cons_append, List.append_assoc, readOn, h, List.nil_append, List.singleton_append,
    readOn, hpart, Option.bind_some]

theorem reads_word (w : String) : Reads [.word w] [.word w] := by
  intro before outer rest
  rw [List.singleton_append, readOn]

theorem reads_words (words : List String) : Reads (words.map .word) (words.map .word) := by
  induction words with
  | nil => exact .nil
  | cons w words ih => exact (reads_word w).append ih

theorem reads_comma : Reads [.mark ','] [.comma] := by
  intro before outer rest
  rw [List.singleton_append, readOn]

theorem reads_operand (operand : Operand) : Reads operand.tokens [.operand operand] := by
  intro before outer rest
  cases operand <;> rfl

theorem reads_operands (operands : List Operand) :
    List.Forall₂ Reads (operands.map Operand.tokens) (operands.map fun x => [.operand x]) := by
  induction operands with
  | nil => exact .nil
  | cons operand operands ih => exact .cons (reads_operand operand) ih

theorem operands?_intercalate (operand : Operand) (operands : List Operand) :
    operands? (List.intercalate [.comma] ((operand :: operands).map fun x => [.operand x])) =
      some (operand :: operands) := by
  induction operands generalizing operand with
  | nil => rfl
  | cons next operands ih =>
    have hnext := ih next
    rw [List.map_cons] at hnext
    rw [List.map_cons, List.map_cons, List.intercalate_cons_cons]
    change (operands? (List.intercalate [.comma] ([.operand next] :: _))).map _ = _
    rw [hnext, Option.map_some]

theorem chain?_intercalate (op : LogicalOp) (f : Filter) (fs : List Filter) :
    chain? op (List.intercalate [.word op.sql] ((f :: fs).map fun f => [.filter f])) =
      some (f :: fs) := by
  induction fs generalizing f with
  | nil => rfl
  | cons next fs ih =>
    have hnext := ih next
    rw [List.map_cons] at hnext
    rw [List.map_cons, List.map_cons, List.intercalate_cons_cons]
    change (if op.sql = op.sql then
      (chain? op (List.intercalate [.word op.sql] ([.filter next] :: _))).map _ else _) = _
    rw [if_pos rfl, hnext, Option.map_some]

theorem leadingWords_append (words : List String) {part : Piece} (h : ∀ w, part ≠ .word w)
    (rest : List Piece) :
    leadingWords (words.map .word ++ part :: rest) = (words, part :: rest) := by
  induction words with
  | nil =>
    cases part with
    | word w => exact absurd rfl (h w)
    | operand | comma | filter | operands => rfl
  | cons w words ih => rw [List.map_cons, List.cons_append, leadingWords, ih]

/-- Operands in parentheses are not taken for a filter. -/
theorem group?_operands (operand : Operand) (operands : List Operand) :
    group? (List.intercalate [.comma] ((operand :: operands).map fun x => [.operand x])) =
      some (.operands (operand :: operands)) := by
  have hnode : node? (List.intercalate [.comma] ((operand :: operands).map fun x => [.operand x])) =
      none := by
    cases operands <;> rfl
  rw [group?, hnode, operands?_intercalate]
  rfl

end Piece

theorem Operator.ofWords?_words (op : Operator) : ofWords? op.words = some op := by
  cases op with
  | logical op | comparison op | range op | membership op => cases op <;> decide

open Piece

namespace Filter

/-- The parts that a filter is read as. -/
def parts : Filter → List Piece
  | .logical op children =>
    match op with
    | .not => .word op.sql :: List.intercalate [] (children.map fun f => [.filter f])
    | op => List.intercalate [.word op.sql] (children.map fun f => [.filter f])
  | .comparison op left right =>
    .operand left :: ((Operator.comparison op).words.map .word ++ [.operand right])
  | .range op subject low high =>
    .operand subject :: ((Operator.range op).words.map .word ++
      [.operand low, .word LogicalOp.and.sql, .operand high])
  | .membership op subject candidates =>
    .operand subject :: ((Operator.membership op).words.map .word ++ [.operands candidates])

theorem node?_chain {op : LogicalOp} (h : op ≠ .not) (f next : Filter) (rest : List Filter) :
    node? (List.intercalate [.word op.sql] ((f :: next :: rest).map fun f => [.filter f])) =
      some (.logical op (f :: next :: rest)) := by
  have hop : ([.and, .or].find? fun other : LogicalOp => other.sql = op.sql) = some op := by
    cases op with
    | and | or => rfl
    | not => exact absurd rfl h
  have hchain := chain?_intercalate op next rest
  rw [List.map_cons] at hchain
  rw [List.map_cons, List.map_cons, List.intercalate_cons_cons]
  change (List.find? (fun other : LogicalOp => other.sql = op.sql) _).bind (fun op' =>
    (chain? op' (List.intercalate [.word op.sql] ([.filter next] :: _))).map _) = _
  rw [hop, Option.bind_some, hchain, Option.map_some]

/-- The parts of a node are read as that node, and as no other. -/
theorem node?_parts {f : Filter} (h : f.fault? = none) : node? f.parts = some f := by
  cases f with
  | logical op children =>
    cases op with
    | not =>
      obtain ⟨child, rfl⟩ := exists_single h
      rfl
    | and | or =>
      obtain ⟨child, next, rest, rfl⟩ := exists_pair (by simp) h
      exact node?_chain (by simp) child next rest
  | comparison op left right =>
    have hright : ∀ w, Piece.operand right ≠ .word w := nofun
    have hwords := leadingWords_append (Operator.comparison op).words hright []
    change leaf? left _ = _
    simp only [leaf?, hwords, Operator.ofWords?_words]
  | range op subject low high =>
    have hlow : ∀ w, Piece.operand low ≠ .word w := nofun
    have hwords := leadingWords_append (Operator.range op).words hlow
      [.word LogicalOp.and.sql, .operand high]
    change leaf? subject _ = _
    simp only [leaf?, hwords, Operator.ofWords?_words, if_true]
  | membership op subject candidates =>
    have hcandidates : ∀ w, Piece.operands candidates ≠ .word w := nofun
    have hwords := leadingWords_append (Operator.membership op).words hcandidates []
    change leaf? subject _ = _
    simp only [leaf?, hwords, Operator.ofWords?_words]

mutual
theorem reads_tokens : ∀ f : Filter, (∀ node ∈ f.nodes, node.fault? = none) → Reads f.tokens f.parts
  | .logical op children, h => by
    have hchildren := reads_groups children fun node hnode => h node (List.mem_cons_of_mem _ hnode)
    cases op with
    | and | or => exact (reads_word _).intercalate hchildren
    | not => exact (reads_word _).append (Reads.nil.intercalate hchildren)
  | .comparison op left right, _ => by
    have hright := (reads_words (Operator.comparison op).words).append (reads_operand right)
    rw [tokens, List.append_assoc]
    exact (reads_operand left).append hright
  | .range op subject low high, _ => by
    have hbounds := ((reads_operand low).append (reads_word "AND")).append (reads_operand high)
    rw [tokens, List.append_assoc]
    exact (reads_operand subject).append ((reads_words _).append hbounds)
  | .membership op subject candidates, h => by
    obtain ⟨candidate, rest, rfl⟩ := exists_candidate (h _ List.mem_cons_self)
    have hgroup := (reads_comma.intercalate (reads_operands (candidate :: rest))).group
      (group?_operands candidate rest)
    have hread := (reads_operand subject).append
      ((reads_words (Operator.membership op).words).append hgroup)
    simpa only [tokens, parts, Operator.tokens, List.append_assoc, List.cons_append,
      List.nil_append] using hread

theorem reads_groups : ∀ fs : List Filter, (∀ node ∈ nodesOf fs, node.fault? = none) →
    List.Forall₂ Reads (groups fs) (fs.map fun f => [.filter f])
  | [], _ => .nil
  | f :: fs, h => by
    obtain ⟨hf, hfs⟩ := List.forall_mem_append.mp h
    have hnode : f.fault? = none := by
      apply hf
      rw [nodes_eq]
      exact List.mem_cons_self
    have hgroup : group? f.parts = some (.filter f) := by
      rw [group?, node?_parts hnode]
      rfl
    exact .cons ((reads_tokens f hf).group hgroup) (reads_groups fs hfs)
end

theorem ofTokens?_tokens {f : Filter} (h : f.faults = []) : ofTokens? f.tokens = some f := by
  have hnodes : ∀ node ∈ f.nodes, node.fault? = none := List.filterMap_eq_nil_iff.mp h
  have hread := reads_tokens f hnodes [] [] []
  rw [List.append_nil] at hread
  rw [ofTokens?, hread]
  exact node?_parts (fault?_eq_none h)

/-- **A compiled filter can be read back.** With the literals in the places of their placeholders,
`n` standing for the one at place `n - first`, a reading of the expression gives the filter. Numbers
are words of 64 bits and start over behind the largest, so that this takes no more literals than
there are words; no memory holds as many. No other filter compiles to the same expression and
literals, from whatever first number. -/
theorem compiled_reads_back {f : Filter} (h : f.faults = []) (first : UInt64) :
    ∃ compiled, f.compile first = .ok compiled ∧
      (f.literals.length ≤ UInt64.size →
        readSql (fun n => compiled.binds[(UInt64.ofNat n - first).toNat]?) compiled.sql = some f) ∧
      ∀ g first', g.compile first' = .ok compiled → g = f := by
  obtain ⟨compiled, hcompiled, -⟩ := exists_compile h first
  obtain ⟨-, htokens, hbinds⟩ := tokens_of_compile hcompiled
  refine ⟨compiled, hcompiled, ?_, ?_⟩
  · intro hsize
    have hfill : (number first f.tokens).mapM (Token.fill? fun n =>
        compiled.binds[(UInt64.ofNat n - first).toNat]?) = some f.tokens := by
      apply fill_number
      intro k hk
      rw [values_tokens] at hk
      have hsmall : (UInt64.ofNat k).toNat = k := UInt64.toNat_ofNat_of_lt' (by omega)
      rw [UInt64.ofNat_toNat, UInt64.add_comm, UInt64.add_sub_cancel, hsmall, hbinds]
    rw [readSql, htokens, hfill, Option.bind_some, ofTokens?_tokens h]
  · intro g first' hg
    obtain ⟨hfaults, htokens', hbinds'⟩ := tokens_of_compile hg
    have same : g.tokens = f.tokens :=
      number_injective (hbinds'.symm.trans hbinds) (htokens'.symm.trans htokens)
    have hread : some g = some f := by
      rw [← ofTokens?_tokens hfaults, same, ofTokens?_tokens h]
    exact Option.some.inj hread

theorem outsiders_read_back :
    ∃ compiled, outsiders.compile 7 = .ok compiled ∧
      readSql (fun n => compiled.binds[(UInt64.ofNat n - 7).toNat]?) compiled.sql =
        some outsiders ∧
      ∀ g first', g.compile first' = .ok compiled → g = outsiders := by
  obtain ⟨compiled, hcompiled, hread, hunique⟩ := compiled_reads_back (f := outsiders) (by decide) 7
  exact ⟨compiled, hcompiled, hread (by decide), hunique⟩

end Filter

end TreeQuery
