import Mathlib.Data.List.Basic
import TreeQuery.Sql.Identifier

/-!
# The tokens of a SQL text

A text is read from left to right. An identifier ends at the first quote that is not doubled; words,
operators and numbers go on as long as their characters do; everything else is a mark by itself, and
blanks only keep tokens apart.

* `Sql.scan`, `Sql.tokens`: the tokens of a text;
* `Scans`: a piece of text that gives the same tokens in front of every blank or mark;
* `Closed.append`, `Scans.append`: such pieces put together;
* `scan_quoteName`: a quoted name in front of anything but a quote;
* `scans_quoteName`, `scans_placeholder`: a quoted name and a numbered placeholder are such pieces,
  whatever stands in the name.
-/

namespace TreeQuery.Sql

/-- A token. A placeholder stands for `π`: for its number as long as it is only read, and for a
literal once that is put in its place. -/
inductive Token (π : Type)
  | name (s : String)
  | placeholder (p : π)
  | word (s : String)
  | mark (c : Char)
  /-- What follows a quote that is never closed. -/
  | unclosed (s : String)
  deriving DecidableEq

/-- What a character can be part of. -/
inductive CharKind
  | blank | quote | colon | letter | sign | mark
  deriving DecidableEq

def charKind (c : Char) : CharKind :=
  if c.isWhitespace then .blank
  else if c = '"' then .quote
  else if c = ':' then .colon
  else if c.isAlphanum || c = '_' then .letter
  else if c ∈ ['<', '>', '=', '!'] then .sign
  else .mark

/-- Where a reading stands: between tokens, or in one of which it has read a part. -/
inductive Place
  | between
  | name (read : List Char)
  /-- Behind a quote that ends the name unless another one follows. -/
  | closing (read : List Char)
  | number (read : List Char)
  | word (kind : CharKind) (read : List Char)

namespace Place

/-- The token that ends where the reading stands. -/
def token : Place → List (Token Nat)
  | .between => []
  | .name read => [.unclosed (String.ofList read)]
  | .closing read => [.name (String.ofList read)]
  | .number [] => [.mark ':']
  | .number read => [.placeholder (Nat.ofDigitChars 10 read 0)]
  | .word _ read => [.word (String.ofList read)]

/-- The start of a token, or a mark that is one by itself. -/
def start (c : Char) : List (Token Nat) × Place :=
  match charKind c with
  | .blank => ([], .between)
  | .quote => ([], .name [])
  | .colon => ([], .number [])
  | .letter => ([], .word .letter [c])
  | .sign => ([], .word .sign [c])
  | .mark => ([.mark c], .between)

/-- The character goes on with the token that is read. -/
def goOn? (c : Char) : Place → Option Place
  | .between => none
  | .name read => some (if c = '"' then .closing read else .name (read ++ [c]))
  | .closing read => if c = '"' then some (.name (read ++ ['"'])) else none
  | .number read => if c.isDigit then some (.number (read ++ [c])) else none
  | .word kind read => if charKind c = kind then some (.word kind (read ++ [c])) else none

/-- The tokens that a character ends, and where it leads. -/
def step (place : Place) (c : Char) : List (Token Nat) × Place :=
  match place.goOn? c with
  | some place => ([], place)
  | none => (place.token ++ (start c).1, (start c).2)

end Place

/-- The tokens of a text that is read on from some place. -/
def scan : Place → List Char → List (Token Nat)
  | place, [] => place.token
  | place, c :: cs => (place.step c).1 ++ scan (place.step c).2 cs

/-- The tokens of a text. -/
def tokens (text : String) : List (Token Nat) := scan .between text.toList

/-- The number of a placeholder. -/
def Token.placeholder? {π : Type} : Token π → Option π
  | .placeholder p => some p
  | _ => none

/-- The numbers of the placeholders in a text, outside of all names. -/
def placeholders (text : String) : List Nat := (tokens text).filterMap Token.placeholder?

/-- The columns that tokens name: two names with a point between them. -/
def columnsOf {π : Type} : List (Token π) → List Column
  | .name entity :: .mark '.' :: .name column :: rest => ⟨entity, column⟩ :: columnsOf rest
  | _ :: rest => columnsOf rest
  | [] => []

/-! ## Pieces of text -/

/-- A character that is part of no token, or a token by itself. -/
def breaks (c : Char) : Bool :=
  match charKind c with
  | .blank | .mark => true
  | _ => false

/-- A text in front of which every token ends. -/
def Ends (rest : List Char) : Prop := rest.head?.all breaks = true

/-- A piece of text that gives the same tokens in front of every blank or mark. -/
def Scans (s : String) (ts : List (Token Nat)) : Prop :=
  ∀ rest, Ends rest → scan .between (s.toList ++ rest) = ts ++ scan .between rest

/-- A piece of text behind which a new token starts, whatever follows. -/
def Closed (s : String) (ts : List (Token Nat)) : Prop :=
  ∀ rest, scan .between (s.toList ++ rest) = ts ++ scan .between rest

variable {s s' p : String} {ts ts' us : List (Token Nat)} {place : Place} {rest cs : List Char}

theorem ends_nil : Ends [] := rfl

theorem Ends.breaks_head {c : Char} (h : Ends rest) (hc : c ∈ rest.head?) : breaks c = true := by
  rw [Ends, Option.mem_def.mp hc] at h
  exact h

theorem Scans.tokens_eq (h : Scans s ts) : tokens s = ts := by
  have hs := h [] ends_nil
  rwa [List.append_nil, scan, Place.token, List.append_nil] at hs

theorem Closed.scans (h : Closed s ts) : Scans s ts := fun rest _ => h rest

theorem Closed.append (h : Closed p us) (hs : Scans s ts) : Scans (p ++ s) (us ++ ts) := by
  intro rest he
  rw [String.toList_append, List.append_assoc, h, hs rest he, List.append_assoc]

theorem Scans.append (h : Scans s ts) (hp : Closed p us) (hne : p.toList ≠ [])
    (he : Ends p.toList) : Closed (s ++ p) (ts ++ us) := by
  intro rest
  have ends : Ends (p.toList ++ rest) := by
    rw [Ends, List.head?_append_of_ne_nil _ hne]
    exact he
  rw [String.toList_append, List.append_assoc, h _ ends, hp rest, List.append_assoc]

/-- A reading that cannot go on starts anew. -/
theorem scan_of_goOn?_eq_none (h : ∀ c ∈ rest.head?, place.goOn? c = none) :
    scan place rest = place.token ++ scan .between rest := by
  cases rest with
  | nil => simp [scan, Place.token]
  | cons c cs =>
    have hc : place.goOn? c = none := h c rfl
    have hb : Place.between.goOn? c = none := rfl
    simp [scan, Place.step, hc, hb, Place.token]

theorem scan_of_goOn?_eq_some {c : Char} {next : Place} (h : place.goOn? c = some next) :
    scan place (c :: cs) = scan next cs := by
  simp [scan, Place.step, h]

/-! ## Names and placeholders -/

theorem scan_name (read name : List Char) (rest : List Char) :
    scan (.name read)
        (name.flatMap (fun c => if c = '"' then ['"', '"'] else [c]) ++ '"' :: rest) =
      scan (.closing (read ++ name)) rest := by
  induction name generalizing read with
  | nil =>
    have hgo : (Place.name read).goOn? '"' = some (.closing read) := rfl
    rw [List.flatMap_nil, List.nil_append, List.append_nil, scan_of_goOn?_eq_some hgo]
  | cons c name ih =>
    have hread : read ++ [c] ++ name = read ++ c :: name := by simp
    rw [List.flatMap_cons, List.append_assoc, ← hread, ← ih]
    by_cases hc : c = '"'
    · -- a doubled quote: the first one might have been the last of the name
      subst hc
      rfl
    · have hgo : (Place.name read).goOn? c = some (.name (read ++ [c])) := by
        simp [Place.goOn?, hc]
      rw [if_neg hc]
      exact scan_of_goOn?_eq_some hgo

/-- A quoted name ends where it ends, whatever follows it, unless that is one more quote. -/
theorem scan_quoteName (name : String) (h : rest.head? ≠ some '"') :
    scan .between ((quoteName name).toList ++ rest) = .name name :: scan .between rest := by
  have hclosing : ∀ c ∈ rest.head?, (Place.closing name.toList).goOn? c = none := by
    intro c hc
    have hquote : c ≠ '"' := by
      rintro rfl
      exact h hc
    simp [Place.goOn?, hquote]
  have hscan := scan_name [] name.toList rest
  rw [List.nil_append, scan_of_goOn?_eq_none hclosing, Place.token, String.ofList_toList] at hscan
  simp only [quoteName, String.toList_append, String.toList_ofList, List.append_assoc]
  exact hscan

theorem scans_quoteName (name : String) : Scans (quoteName name) [.name name] := by
  intro rest he
  refine scan_quoteName name fun hquote => ?_
  exact absurd (he.breaks_head hquote) (by decide)

theorem charKind_of_isDigit {c : Char} (h : c.isDigit) : charKind c = .letter := by
  have hne : ∀ d : Char, d.isDigit = false → c ≠ d := by
    rintro d hd rfl
    simp [hd] at h
  simp [charKind, Char.isWhitespace, Char.isAlphanum, h, hne ' ' rfl, hne '\t' rfl, hne '\r' rfl,
    hne '\n' rfl, hne '"' rfl, hne ':' rfl]

theorem scan_number (read digits : List Char) (hd : ∀ c ∈ digits, c.isDigit) (he : Ends rest) :
    scan (.number read) (digits ++ rest) =
      (Place.number (read ++ digits)).token ++ scan .between rest := by
  induction digits generalizing read with
  | nil =>
    rw [List.append_nil]
    refine scan_of_goOn?_eq_none fun c hc => ?_
    have hdigit : ¬ c.isDigit := by
      intro hdigit
      have hends := he.breaks_head hc
      simp [breaks, charKind_of_isDigit hdigit] at hends
    simp [Place.goOn?, hdigit]
  | cons d digits ih =>
    have hgo : (Place.number read).goOn? d = some (.number (read ++ [d])) := by
      simp [Place.goOn?, hd d List.mem_cons_self]
    have hdigits : ∀ c ∈ digits, c.isDigit := fun c hc => hd c (List.mem_cons_of_mem _ hc)
    rw [List.cons_append, scan_of_goOn?_eq_some hgo, ih _ hdigits, List.append_assoc]
    rfl

theorem scans_placeholder (n : Nat) : Scans (":" ++ toString n) [.placeholder n] := by
  intro rest he
  have hdigits : ∀ c ∈ Nat.toDigits 10 n, c.isDigit := fun c hc =>
    Nat.isDigit_of_mem_toDigits (by decide) (by decide) hc
  have htoken : (Place.number (Nat.toDigits 10 n)).token = [.placeholder n] := by
    obtain ⟨d, ds, hds⟩ := List.exists_cons_of_ne_nil (Nat.toDigits_ne_nil (n := n) (b := 10))
    rw [hds, Place.token, ← hds, Nat.ofDigitChars_ten_toDigits]
    exact nofun
  have hscan := scan_number [] (Nat.toDigits 10 n) hdigits he
  rw [List.nil_append, htoken] at hscan
  simp only [String.toList_append, Nat.toString_eq_ofList_toDigits, String.toList_ofList]
  exact hscan

example : tokens "\"a\"\":1\".\"c\" <= :10" =
    [.name "a\":1", .mark '.', .name "c", .word "<=", .placeholder 10] := by
  cbv

end TreeQuery.Sql
