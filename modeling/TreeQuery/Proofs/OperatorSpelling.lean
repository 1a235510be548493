import TreeQuery.Filter.Written
import TreeQuery.Proofs.Words

/-!
# Operators as they are spelled

* `parse?_sql`: every operator is read from its SQL spelling;
* `parse?_eq_some_iff`: a token spells an operator with its words in upper case;
* `regrouped_unread`: the letters of an operator in other groups spell none;
* `tokens_read_by_words`: what of a token matters, and what is said of one that spells nothing.
-/

namespace TreeQuery

open Text

namespace Operator

/-- The characters of the SQL spellings. -/
def letters : List Char :=
  [' ', '!', '<', '=', '>', 'A', 'B', 'D', 'E', 'I', 'K', 'L', 'N', 'O', 'R', 'S', 'T', 'W']

theorem upperChar_letter : ∀ c ∈ letters, upperChar c = [c] := by
  have hall : letters.all (fun c => upperChar c = [c]) = true := by decide +kernel
  exact fun c hc => of_decide_eq_true (List.all_eq_true.mp hall c hc)

theorem upper_eq_self {s : String} (h : ∀ c ∈ s.toList, c ∈ letters) : upper s = s := by
  have each : s.toList.flatMap upperChar = s.toList.flatMap ([·]) := by
    apply List.flatMap_congr
    intro c hc
    exact upperChar_letter c (h c hc)
  rw [upper, each, List.flatMap_singleton', String.ofList_toList]

theorem mem_letters_of_sql (operator : Operator) : ∀ c ∈ operator.sql.toList, c ∈ letters := by
  rcases operator with op | op | op | op <;> cases op <;>
    simp [sql, LogicalOp.sql, ComparisonOp.sql, RangeOp.sql, MembershipOp.sql, letters]

theorem separated_words_sql (operator : Operator) :
    separated " " (Text.words operator.sql) = operator.sql := by
  rcases operator with op | op | op | op <;> cases op <;>
    simp [sql, LogicalOp.sql, ComparisonOp.sql, RangeOp.sql, MembershipOp.sql, Text.words,
      wordsOf, isBlank, blanks, extendWord, separated]

/-- No two operators share their spelling. -/
theorem find?_sql (operator : Operator) : all.find? (·.sql = operator.sql) = some operator := by
  rcases operator with op | op | op | op <;> cases op <;>
    simp [all, sql, LogicalOp.sql, ComparisonOp.sql, RangeOp.sql, MembershipOp.sql]

theorem parse?_sql (operator : Operator) : parse? operator.sql = some operator := by
  have hnormal : normalize operator.sql = operator.sql := by
    rw [normalize, separated_words_sql, upper_eq_self (mem_letters_of_sql operator)]
  rw [parse?, hnormal, find?_sql]

theorem parse?_logical (op : LogicalOp) : parse? op.sql = some (.logical op) :=
  parse?_sql (.logical op)

/-! ## Words of a token -/

variable {token other : String} {operator : Operator}

theorem normalize_eq (token : String) :
    normalize token = separated " " ((Text.words token).map upper) :=
  upper_separated (Text.words token)

theorem normalize_eq_sql_iff :
    normalize token = operator.sql ↔ (Text.words token).map upper = Text.words operator.sql := by
  rw [normalize_eq]
  constructor
  · intro h
    have hwords : ∀ w ∈ (Text.words token).map upper, IsWord w.toList := by
      intro u hu
      obtain ⟨w, hw, rfl⟩ := List.mem_map.mp hu
      exact (isWord_of_mem_words hw).upper
    rw [← h, words_separated _ hwords]
  · intro h
    rw [h, separated_words_sql]

theorem parse?_eq_some_iff :
    parse? token = some operator ↔ (Text.words token).map upper = Text.words operator.sql := by
  rw [← normalize_eq_sql_iff]
  constructor
  · intro h
    rw [parse?] at h
    have hfound : operator.sql = normalize token := by simpa using List.find?_some h
    exact hfound.symm
  · intro h
    rw [parse?, h, find?_sql]

/-- No list of words spells two operators. -/
theorem words_sql_injective {op op' : Operator} (h : Text.words op.sql = Text.words op'.sql) :
    op = op' := by
  have hsql : op.sql = op'.sql := calc
    op.sql = separated " " (Text.words op.sql) := (separated_words_sql op).symm
    _ = separated " " (Text.words op'.sql) := congrArg _ h
    _ = op'.sql := separated_words_sql op'
  exact Option.some.inj (calc
    some op = parse? op.sql := (parse?_sql op).symm
    _ = parse? op'.sql := congrArg _ hsql
    _ = some op' := parse?_sql op')

theorem parse?_congr (h : (Text.words other).map upper = (Text.words token).map upper) :
    parse? other = parse? token := by
  rw [parse?, parse?, normalize_eq, normalize_eq, h]

theorem mem_all (operator : Operator) : operator ∈ all :=
  List.mem_of_find?_eq_some (find?_sql operator)

/-- Operators differ in their letters, not only in how these are grouped. -/
theorem join_words_sql_injective {op op' : Operator}
    (h : String.join (Text.words op.sql) = String.join (Text.words op'.sql)) : op = op' := by
  have hall : ∀ op ∈ all, ∀ op' ∈ all,
      String.join (Text.words op.sql) = String.join (Text.words op'.sql) → op = op' := by
    decide +kernel
  exact hall op (mem_all op) op' (mem_all op') h

theorem regrouped_unread
    (hletters : String.join ((Text.words token).map upper) = String.join (Text.words operator.sql))
    (hgroups : (Text.words token).map upper ≠ Text.words operator.sql) : parse? token = none := by
  cases hparse : parse? token with
  | none => rfl
  | some op =>
    have hwords := parse?_eq_some_iff.mp hparse
    rw [hwords] at hletters
    rw [hwords, join_words_sql_injective hletters] at hgroups
    exact absurd rfl hgroups

theorem ofWritten_of_parse?_eq_none (h : parse? token = none)
    (filters : Option (List WrittenFilter)) (operands : Option (List Operand)) :
    Filter.ofWritten (.node token filters operands) = .error (.unknownOperator token) := by
  rw [Filter.ofWritten, h]

theorem message_unknownOperator (token : String) :
    (QueryViolation.malformedFilter (.unknownOperator token)).message =
      "Malformed filter at operator `" ++ token ++ "`: unknown operator" := by
  have hreason : "`: " ++ "unknown operator" = "`: unknown operator" := by decide +kernel
  exact String.append_assoc.trans (congrArg _ hreason)

/-- **A token is read by its words.** These are its maximal runs of characters that are not blank,
and it spells the one operator, if any, whose SQL spelling they are in upper case. So blanks around
the words and between them may be any, and words may be exchanged for others of the same upper-case
form, but the same letters grouped into other words spell nothing. A token that spells nothing is
reported as it stands. -/
theorem tokens_read_by_words (token : String) :
    (∀ runs, Runs token.toList runs ↔ (Text.words token).map String.toList = runs) ∧
    (∀ op, parse? token = some op ↔ (Text.words token).map upper = Text.words op.sql) ∧
    (∀ op op' : Operator, Text.words op.sql = Text.words op'.sql → op = op') ∧
    (∀ op : Operator, parse? op.sql = some op) ∧
    (∀ before after, Blank before.toList → Blank after.toList →
      parse? (before ++ token ++ after) = parse? token) ∧
    (∀ left gap gap' right, Blank gap.toList → gap ≠ "" → Blank gap'.toList → gap' ≠ "" →
      token = left ++ gap ++ right → parse? (left ++ gap' ++ right) = parse? token) ∧
    (∀ other, (Text.words other).map upper = (Text.words token).map upper →
      parse? other = parse? token) ∧
    (∀ op : Operator,
      String.join ((Text.words token).map upper) = String.join (Text.words op.sql) →
      (Text.words token).map upper ≠ Text.words op.sql → parse? token = none) ∧
    (parse? token = none → ∀ filters operands,
      Filter.ofWritten (.node token filters operands) = .error (.unknownOperator token) ∧
        (QueryViolation.malformedFilter (.unknownOperator token)).message =
          "Malformed filter at operator `" ++ token ++ "`: unknown operator") := by
  refine ⟨fun runs => ?_, fun op => parse?_eq_some_iff, fun _ _ => words_sql_injective, parse?_sql,
    fun before after hbefore hafter => ?_, fun left gap gap' right hgap hne hgap' hne' htoken => ?_,
    fun other => parse?_congr, fun op => regrouped_unread, fun hnone filters operands => ?_⟩
  · rw [words_eq_map, wordsOf_eq_iff]
  · exact parse?_congr (by rw [words_padded token hbefore hafter])
  · refine parse?_congr ?_
    rw [htoken, words_append_gap left right hgap' hne', words_append_gap left right hgap hne]
  · exact ⟨ofWritten_of_parse?_eq_none hnone filters operands, message_unknownOperator token⟩

/-- Blanks of several kinds, small letters, and letters that are `I` and `S` in upper case only. -/
theorem odd_tokens_read_by_words :
    parse? "\u2003not\t\u0131n\u00A0" = some (.membership .notAmong) ∧
    parse? "\u2003not \n \u0131n\u00A0" = some (.membership .notAmong) ∧
    parse? "i\u017F" = some (.comparison .is) ∧ parse? "NOTIN" = none ∧ parse? "< =" = none ∧
    Filter.ofWritten (.node "< =" none (some [])) = .error (.unknownOperator "< =") ∧
      (QueryViolation.malformedFilter (.unknownOperator "< =")).message =
        "Malformed filter at operator `" ++ "< =" ++ "`: unknown operator" := by
  obtain ⟨-, hspells, -, -, -, hgap, -⟩ := tokens_read_by_words "\u2003not\t\u0131n\u00A0"
  have hnotAmong := (hspells (.membership .notAmong)).mpr (by decide +kernel)
  have hwider := hgap "\u2003not" "\t" " \n " "\u0131n\u00A0" (by decide +kernel) (by decide)
    (by decide +kernel) (by decide) (by decide +kernel)
  obtain ⟨-, hspells, -⟩ := tokens_read_by_words "i\u017F"
  obtain ⟨-, -, -, -, -, -, -, hjoined, -⟩ := tokens_read_by_words "NOTIN"
  obtain ⟨-, -, -, -, -, -, -, hsplit, hreported⟩ := tokens_read_by_words "< ="
  have hnone := hsplit (.comparison .atMost) (by decide +kernel) (by decide +kernel)
  exact ⟨hnotAmong, hwider.trans hnotAmong, (hspells (.comparison .is)).mpr (by decide +kernel),
    hjoined (.membership .notAmong) (by decide +kernel) (by decide +kernel), hnone,
    hreported hnone none (some [])⟩

end Operator

end TreeQuery
