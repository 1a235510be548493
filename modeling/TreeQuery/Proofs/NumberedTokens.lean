import TreeQuery.Proofs.FilterReading
import TreeQuery.Proofs.SqlTokens

/-!
# Numbered tokens

Tokens that hold literals are written with a number in the place of each. What is written bit by bit
is numbered bit by bit, every bit from where the one before it ends.

* `Sql.number`, `values_number`: tokens with their literals numbered, and the numbers handed out;
* `columnsOf_number`: the columns among numbered tokens;
* `Sql.Writes`: a text that reads as some tokens with their literals numbered;
* `Gap.writes_append`, `WritesAll.intercalate`: such texts put together, with others between them.
-/

namespace TreeQuery

/-- What is kept by appending is kept by lists with separators between their parts. -/
theorem forall₂_intercalate {α β : Type} {P : List α → List β → Prop} (nil : P [] [])
    (append : ∀ {a a' b b'}, P a b → P a' b' → P (a ++ a') (b ++ b')) {u : List α} {v : List β}
    (gap : P u v) {as : List (List α)} {bs : List (List β)} (h : List.Forall₂ P as bs) :
    P (u.intercalate as) (v.intercalate bs) := by
  induction h with
  | nil => exact nil
  | cons head tail ih =>
    cases tail with
    | nil => simpa using head
    | cons next rest =>
      rw [List.intercalate_cons_cons, List.intercalate_cons_cons]
      exact append (append head gap) ih

theorem intercalate_nil {α : Type} (as : List (List α)) : List.intercalate [] as = as.flatten := by
  induction as with
  | nil => rfl
  | cons a as ih =>
    cases as with
    | nil => simp
    | cons next rest => rw [List.intercalate_cons_cons, ih, List.append_nil, ← List.flatten_cons]

/-- The column of a column operand. -/
def Operand.column? : Operand → Option Sql.Column
  | .column entity name => some ⟨entity, name⟩
  | .literal _ => none

namespace Sql

variable {π ρ : Type}

/-- The token with something else in the place of what a placeholder stands for. -/
def Token.map (f : π → ρ) : Token π → Token ρ
  | .name s => .name s
  | .placeholder p => .placeholder (f p)
  | .word s => .word s
  | .mark c => .mark c
  | .unclosed s => .unclosed s

/-- What the placeholders among some tokens stand for, from left to right. -/
def values (ts : List (Token π)) : List π := ts.filterMap Token.placeholder?

/-- The tokens with their literals numbered from left to right. -/
def number (first : UInt64) : List (Token Literal) → List (Token Nat)
  | [] => []
  | t :: ts => t.map (fun _ => first.toNat) ::
      number (first + UInt64.ofNat t.placeholder?.toList.length) ts

/-- The number that comes after those of some tokens. -/
def after (first : UInt64) (ts : List (Token Literal)) : UInt64 :=
  first + UInt64.ofNat (values ts).length

variable {first : UInt64} {ts ts' us : List (Token Literal)} {s s' p : String}

theorem values_cons (t : Token π) (ts : List (Token π)) :
    values (t :: ts) = t.placeholder?.toList ++ values ts := by
  cases h : t.placeholder? <;> simp [values, h]

theorem values_append (ts us : List (Token π)) : values (ts ++ us) = values ts ++ values us :=
  List.filterMap_append

theorem values_words (words : List String) :
    values (words.map fun w => (.word w : Token π)) = [] := by
  simp [values, Token.placeholder?]

theorem after_append (first : UInt64) (ts us : List (Token Literal)) :
    after first (ts ++ us) = after (after first ts) us := by
  simp [after, values_append, UInt64.ofNat_add, UInt64.add_assoc]

theorem after_of_values_eq_nil (h : values us = []) (first : UInt64) : after first us = first := by
  simp [after, h]

theorem number_append (first : UInt64) (ts us : List (Token Literal)) :
    number first (ts ++ us) = number first ts ++ number (after first ts) us := by
  induction ts generalizing first with
  | nil => simp [number, after, values]
  | cons t ts ih =>
    simp [number, ih, after, values_cons, UInt64.ofNat_add, UInt64.add_assoc]

theorem number_ne_nil (h : ts ≠ []) : number first ts ≠ [] := by
  cases ts with
  | nil => exact absurd rfl h
  | cons t ts => exact List.cons_ne_nil _ _

theorem toNat_add_ofNat {k : Nat} (h : first.toNat + k < UInt64.size) :
    (first + UInt64.ofNat k).toNat = first.toNat + k := by
  rw [UInt64.toNat_add, UInt64.toNat_ofNat', Nat.add_mod_mod, Nat.mod_eq_of_lt h]

theorem number_words (first : UInt64) (words : List String) :
    number first (words.map .word) = words.map .word := by
  induction words with
  | nil => rfl
  | cons w words ih => simpa [number, Token.map, Token.placeholder?] using ih

theorem add_one_add_ofNat (first : UInt64) (k : Nat) :
    first + 1 + UInt64.ofNat k = first + UInt64.ofNat (k + 1) := by
  rw [Nat.add_comm k 1, UInt64.ofNat_add, ← UInt64.add_assoc]
  rfl

/-- The numbers that are handed out go up from the first, and start over behind the largest word. -/
theorem values_number (first : UInt64) (ts : List (Token Literal)) :
    values (number first ts) =
      (List.range (values ts).length).map fun k => (first + UInt64.ofNat k).toNat := by
  induction ts generalizing first with
  | nil => rfl
  | cons t ts ih =>
    rw [number, values_cons, values_cons, ih]
    cases t with
    | placeholder value =>
      simp [Token.map, Token.placeholder?, List.range_succ_eq_map, add_one_add_ofNat,
        Function.comp_def]
    | name | word | mark | unclosed => simp [Token.map, Token.placeholder?]

/-- The operands that stand among some tokens. -/
def operandsOf : List (Token Literal) → List Operand
  | .name entity :: .mark '.' :: .name name :: rest => .column entity name :: operandsOf rest
  | .placeholder value :: rest => .literal value :: operandsOf rest
  | _ :: rest => operandsOf rest
  | [] => []

theorem values_eq (ts : List (Token Literal)) :
    values ts = (operandsOf ts).filterMap Operand.literal? := by
  fun_induction operandsOf ts with
  | case1 entity name rest ih => exact ih
  | case2 value rest ih => exact congrArg (value :: ·) ih
  | case3 t rest _ hplaceholder ih =>
    cases t with
    | placeholder value => exact absurd rfl (hplaceholder value)
    | name | word | mark | unclosed => exact ih
  | case4 => rfl

theorem exists_of_number_eq {name : String} {more : List (Token Nat)}
    (h : number first ts = .mark '.' :: .name name :: more) :
    ∃ more, ts = .mark '.' :: .name name :: more := by
  obtain _ | ⟨t, _ | ⟨u, rest⟩⟩ := ts
  · cases h
  · cases t <;> cases h
  · cases t <;> cases u <;> cases h
    exact ⟨rest, rfl⟩

/-- Numbering leaves the columns as they are. -/
theorem columnsOf_number (first : UInt64) (ts : List (Token Literal)) :
    columnsOf (number first ts) = (operandsOf ts).filterMap Operand.column? := by
  fun_induction operandsOf ts generalizing first with
  | case1 entity name rest ih =>
    exact congrArg (Column.mk entity name :: ·) (ih _)
  | case2 value rest ih => exact ih _
  | case3 t rest hcolumn hplaceholder ih =>
    have hrest := ih (first + UInt64.ofNat t.placeholder?.toList.length)
    rw [number]
    cases t with
    | placeholder value => exact absurd rfl (hplaceholder value)
    | word | mark | unclosed => exact hrest
    | name entity =>
      -- the tokens behind the name are no point and name, and numbering does not make them so
      rw [Token.map, columnsOf]
      · exact hrest
      · intro _ column more _ hmore
        obtain ⟨more, rfl⟩ := exists_of_number_eq hmore
        exact hcolumn entity column more rfl rfl
  | case4 => rfl

/-! ## Written tokens -/

/-- A text that reads as some tokens, with the literals among them numbered. -/
def Writes (first : UInt64) (s : String) (ts : List (Token Literal)) : Prop :=
  Scans s (number first ts)

/-- A text without literals behind which a new token starts, with the tokens that it holds. -/
structure Frame (p : String) (us : List (Token Literal)) : Prop where
  values : values us = []
  closed : ∀ first, Closed p (number first us)

/-- A frame in front of which every token ends, so that it may stand between two texts. -/
structure Gap (p : String) (us : List (Token Literal)) : Prop extends Frame p us where
  ne_nil : p.toList ≠ []
  ends : Ends p.toList

theorem Gap.writes_append (gap : Gap p us) (h : Writes first s ts)
    (h' : Writes (after first ts) s' ts') : Writes first (s ++ p ++ s') (ts ++ us ++ ts') := by
  have hclosed := h.append (gap.closed (after first ts)) gap.ne_nil gap.ends
  rw [Writes, number_append, number_append, after_append, after_of_values_eq_nil gap.values]
  exact hclosed.append h'

theorem Frame.append_writes (frame : Frame p us) (h : Writes first s ts) :
    Writes first (p ++ s) (us ++ ts) := by
  rw [Writes, number_append, after_of_values_eq_nil frame.values]
  exact (frame.closed first).append h

theorem Gap.writes_end (gap : Gap p us) (h : Writes first s ts) :
    Writes first (s ++ p) (ts ++ us) := by
  rw [Writes, number_append]
  exact (h.append (gap.closed (after first ts)) gap.ne_nil gap.ends).scans

theorem Gap.append {q : String} {vs : List (Token Literal)} (hp : Gap p us) (hq : Gap q vs) :
    Gap (p ++ q) (us ++ vs) where
  values := by rw [values_append, hp.values, hq.values, List.append_nil]
  closed first := by
    intro rest
    rw [String.toList_append, List.append_assoc, hp.closed first, hq.closed first, number_append,
      after_of_values_eq_nil hp.values, List.append_assoc]
  ne_nil := by
    rw [String.toList_append]
    exact List.append_ne_nil_of_left_ne_nil hp.ne_nil _
  ends := by
    rw [Ends, String.toList_append, List.head?_append_of_ne_nil _ hp.ne_nil]
    exact hp.ends

/-- Texts one after another, each numbered from where the one before it ends. -/
inductive WritesAll : UInt64 → List String → List (List (Token Literal)) → Prop
  | nil {first : UInt64} : WritesAll first [] []
  | cons {first : UInt64} {s : String} {ts : List (Token Literal)} {texts : List String}
      {tokens : List (List (Token Literal))} (head : Writes first s ts)
      (tail : WritesAll (after first ts) texts tokens) : WritesAll first (s :: texts) (ts :: tokens)

theorem WritesAll.intercalate {texts : List String} {tokens : List (List (Token Literal))}
    (gap : Gap p us) (h : WritesAll first texts tokens) :
    Writes first (p.intercalate texts) (us.intercalate tokens) := by
  induction h with
  | nil => exact fun _ _ => rfl
  | cons head tail ih =>
    cases tail with
    | nil => simpa using head
    | cons next rest =>
      rw [String.intercalate_cons_cons, List.intercalate_cons_cons]
      exact gap.writes_append head ih

end Sql

end TreeQuery
