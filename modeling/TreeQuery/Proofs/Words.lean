import Mathlib.Data.List.Basic
import TreeQuery.Text.Blank
import TreeQuery.Text.Separated
import TreeQuery.Text.Upper

/-!
# Words

A text falls into words in one way, and its form in upper case into the upper-case forms of these
words: no character vanishes, and only blanks become blanks.

* `Runs`: a text with its maximal runs of characters that are not blank;
* `wordsOf_eq_iff`: the words of a text are its runs;
* `words_append_gap`, `words_padded`: how many blanks there are, and which, makes no difference;
* `words_separated`: words are read back from the text that joins them;
* `IsWord.upper`, `upper_separated`: upper case turns words into words and joined words into joined
  words.
-/

namespace TreeQuery.Text

/-- Nothing but blanks. -/
def Blank (text : List Char) : Prop :=
  ∀ c ∈ text, isBlank c = true

instance Blank.decidable (text : List Char) : Decidable (Blank text) :=
  List.decidableBAll (fun c => isBlank c = true) text

structure IsWord (text : List Char) : Prop where
  ne_nil : text ≠ []
  solid : ∀ c ∈ text, isBlank c = false

/-- A text and its maximal runs of characters that are not blank: each begins after blanks or where
the text does, and ends before a blank or where the text ends. -/
inductive Runs : List Char → List (List Char) → Prop
  | blank {gap : List Char} (hgap : Blank gap) : Runs gap []
  | word {gap word rest : List Char} {runs : List (List Char)} (hgap : Blank gap)
      (hword : IsWord word) (hends : ∀ c ∈ rest.head?, isBlank c = true) (hrest : Runs rest runs) :
      Runs (gap ++ word ++ rest) (word :: runs)

variable {c : Char} {gap word left right rest text : List Char} {runs : List (List Char)}

theorem blank_nil : Blank [] := by simp [Blank]

theorem blank_cons : Blank (c :: text) ↔ isBlank c = true ∧ Blank text := List.forall_mem_cons

theorem isWord_singleton (h : isBlank c = false) : IsWord [c] :=
  ⟨List.cons_ne_nil _ _, List.forall_mem_singleton.mpr h⟩

theorem IsWord.cons (h : isBlank c = false) (hword : IsWord word) : IsWord (c :: word) :=
  ⟨List.cons_ne_nil _ _, List.forall_mem_cons.mpr ⟨h, hword.solid⟩⟩

theorem Runs.isWord (h : Runs text runs) : ∀ word ∈ runs, IsWord word := by
  induction h with
  | blank => simp
  | word _ hword _ _ ih => exact List.forall_mem_cons.mpr ⟨hword, ih⟩

/-! ## Reading words -/

theorem extendWord_fresh (c : Char) (words : List (List Char)) :
    extendWord c false words = [c] :: words := by
  cases words <;> rfl

theorem wordsOf_gap_append (h : Blank gap) (text : List Char) :
    wordsOf (gap ++ text) = wordsOf text := by
  induction gap with
  | nil => rfl
  | cons c gap ih =>
    obtain ⟨hc, hgap⟩ := blank_cons.mp h
    rw [List.cons_append, wordsOf, if_pos hc, ih hgap]

theorem wordsOf_word_append (h : IsWord word) (hends : ∀ c ∈ rest.head?, isBlank c = true) :
    wordsOf (word ++ rest) = word :: wordsOf rest := by
  obtain ⟨hne, hsolid⟩ := h
  induction word with
  | nil => exact absurd rfl hne
  | cons c word ih =>
    obtain ⟨hc, hword⟩ := List.forall_mem_cons.mp hsolid
    rw [List.cons_append, wordsOf, if_neg (by simp [hc])]
    cases word with
    | nil =>
      have hfresh : rest.head?.any (!isBlank ·) = false := by
        simpa [Option.any_eq_false] using hends
      rw [List.nil_append, hfresh, extendWord_fresh]
    | cons d word =>
      have hbegun : (d :: word ++ rest).head?.any (!isBlank ·) = true := by
        simp [hword d List.mem_cons_self]
      rw [ih (List.cons_ne_nil d word) hword, hbegun]
      rfl

theorem Runs.wordsOf_eq (h : Runs text runs) : wordsOf text = runs := by
  induction h with
  | @blank gap hgap => simpa [wordsOf] using wordsOf_gap_append hgap []
  | word hgap hword hends _ ih =>
    rw [List.append_assoc, wordsOf_gap_append hgap, wordsOf_word_append hword hends, ih]

theorem Runs.cons_blank (hc : isBlank c = true) (h : Runs text runs) : Runs (c :: text) runs := by
  cases h with
  | blank hgap => exact .blank (blank_cons.mpr ⟨hc, hgap⟩)
  | word hgap hword hends hrest =>
    exact Runs.word (blank_cons.mpr ⟨hc, hgap⟩) hword hends hrest

/-- A character that is not blank goes on with the run behind it, or is a run of its own. -/
theorem Runs.cons_solid (hc : isBlank c = false) (h : Runs text runs) :
    Runs (c :: text) (extendWord c (text.head?.any (!isBlank ·)) runs) := by
  cases h with
  | blank hgap =>
    have hends : ∀ d ∈ text.head?, isBlank d = true := fun d hd => hgap d (List.mem_of_mem_head? hd)
    exact Runs.word blank_nil (isWord_singleton hc) hends (.blank hgap)
  | @word gap word rest runs hgap hword hends hrest =>
    cases gap with
    | nil =>
      cases word with
      | nil => exact absurd rfl hword.ne_nil
      | cons d word =>
        have hbegun : ([] ++ d :: word ++ rest).head?.any (!isBlank ·) = true := by
          simp [hword.solid d List.mem_cons_self]
        rw [hbegun]
        exact Runs.word blank_nil (hword.cons hc) hends hrest
    | cons d gap =>
      -- a blank comes first, so that `c` is a run by itself
      have hd : isBlank d = true := (blank_cons.mp hgap).1
      have hfresh : (d :: gap ++ word ++ rest).head?.any (!isBlank ·) = false := by simp [hd]
      rw [hfresh, extendWord_fresh]
      exact Runs.word blank_nil (isWord_singleton hc) (by simp [hd])
        (.word hgap hword hends hrest)

theorem runs_wordsOf (text : List Char) : Runs text (wordsOf text) := by
  induction text with
  | nil => exact .blank blank_nil
  | cons c text ih =>
    rw [wordsOf]
    cases hc : isBlank c with
    | true => exact ih.cons_blank hc
    | false => exact ih.cons_solid hc

theorem wordsOf_eq_iff : wordsOf text = runs ↔ Runs text runs :=
  ⟨fun h => h ▸ runs_wordsOf text, Runs.wordsOf_eq⟩

/-- Blanks between two texts keep the words of both. -/
theorem Runs.wordsOf_append (h : Runs left runs) (hgap : Blank gap) (hne : gap ≠ [])
    (right : List Char) : wordsOf (left ++ (gap ++ right)) = runs ++ wordsOf right := by
  induction h with
  | blank hleft => rw [wordsOf_gap_append hleft, wordsOf_gap_append hgap, List.nil_append]
  | @word g word rest runs hg hword hends _ ih =>
    have hmore : ∀ c ∈ (rest ++ (gap ++ right)).head?, isBlank c = true := by
      cases rest with
      | cons c rest => simpa using hends
      | nil =>
        cases gap with
        | nil => exact absurd rfl hne
        | cons c gap => simpa using (blank_cons.mp hgap).1
    rw [List.append_assoc, List.append_assoc, wordsOf_gap_append hg,
      wordsOf_word_append hword hmore, ih, List.cons_append]

/-! ## Words of texts -/

theorem words_eq_map (s : String) : (words s).map String.toList = wordsOf s.toList := by
  simp [words, Function.comp_def]

theorem isWord_of_mem_words {s w : String} (h : w ∈ words s) : IsWord w.toList := by
  have hmem : w.toList ∈ wordsOf s.toList := words_eq_map s ▸ List.mem_map_of_mem h
  exact (runs_wordsOf s.toList).isWord _ hmem

theorem words_empty : words "" = [] := rfl

theorem words_append_gap {gap : String} (left right : String) (hgap : Blank gap.toList)
    (hne : gap ≠ "") : words (left ++ gap ++ right) = words left ++ words right := by
  have hne : gap.toList ≠ [] := by simpa using hne
  rw [words, String.append_assoc, String.toList_append, String.toList_append,
    (runs_wordsOf left.toList).wordsOf_append hgap hne, List.map_append]
  rfl

theorem words_padded {before after : String} (s : String) (hbefore : Blank before.toList)
    (hafter : Blank after.toList) : words (before ++ s ++ after) = words s := by
  have hleading : words (before ++ (s ++ after)) = words (s ++ after) := by
    rw [words, String.toList_append, wordsOf_gap_append hbefore, words]
  rw [String.append_assoc, hleading]
  by_cases hne : after = ""
  · rw [hne, String.append_empty]
  · have htrailing := words_append_gap s "" hafter hne
    rwa [String.append_empty, words_empty, List.append_nil] at htrailing

theorem words_word {w : String} (h : IsWord w.toList) : words w = [w] := by
  have hrest : ∀ c ∈ ([] : List Char).head?, isBlank c = true := by simp
  rw [words, ← List.append_nil w.toList, wordsOf_word_append h hrest]
  simp [wordsOf]

theorem blank_space : Blank " ".toList := by decide +kernel

/-- Words are read back from the text that joins them. -/
theorem words_separated (ws : List String) (h : ∀ w ∈ ws, IsWord w.toList) :
    words (separated " " ws) = ws := by
  induction ws with
  | nil => rfl
  | cons w ws ih =>
    obtain ⟨hw, hws⟩ := List.forall_mem_cons.mp h
    cases ws with
    | nil => exact words_word hw
    | cons next ws =>
      have hjoined : separated " " (w :: next :: ws) = w ++ " " ++ separated " " (next :: ws) := rfl
      rw [hjoined, words_append_gap w _ blank_space (by simp), words_word hw, ih hws]
      rfl

/-! ## Upper case -/

theorem expansions_solid :
    ∀ entry ∈ expansions, entry.2 ≠ [] ∧ ∀ n ∈ entry.2, isBlank (Char.ofNat n) = false := by
  decide +kernel

/-- No run of characters that move together moves one of them to a blank. -/
theorem caseRuns_solid :
    ∀ run ∈ caseRuns, ∀ n ∈ blanks, run.holds ((n : Int) - run.shift).toNat = false := by
  decide +kernel

theorem zero_notMem_blanks : 0 ∉ blanks := by decide

theorem mem_blanks_of_ofNat {n : Nat} (h : isBlank (Char.ofNat n) = true) : n ∈ blanks := by
  have hmem : (Char.ofNat n).toNat ∈ blanks := List.contains_iff_mem.mp h
  by_cases hvalid : n.isValidChar
  · rw [Char.ofNat, dif_pos hvalid] at hmem
    exact hmem
  · rw [Char.ofNat, dif_neg hvalid] at hmem
    exact absurd hmem zero_notMem_blanks

/-- Moving back from a blank would lead to a character of the run. -/
theorem isBlank_moved {run : CaseRun} {n : Nat} (hrun : run ∈ caseRuns) (h : run.holds n = true) :
    isBlank (Char.ofNat (n + run.shift).toNat) = false := by
  by_contra hblank
  have hmem := mem_blanks_of_ofNat (Bool.not_eq_false _ ▸ hblank)
  have hpos : (n + run.shift).toNat ≠ 0 := fun hzero => zero_notMem_blanks (hzero ▸ hmem)
  have hback : (((n + run.shift).toNat : Int) - run.shift).toNat = n := by omega
  have hmiss := caseRuns_solid run hrun _ hmem
  rw [hback, h] at hmiss
  exact Bool.noConfusion hmiss

theorem isWord_upperChar (h : isBlank c = false) : IsWord (upperChar c) := by
  unfold upperChar
  cases hlookup : expansions.lookup c.toNat with
  | some codes =>
    obtain ⟨before, behind, hsplit, -⟩ := List.lookup_eq_some_iff.mp hlookup
    have hmem : (c.toNat, codes) ∈ expansions := by
      rw [hsplit]
      exact List.mem_append_right _ List.mem_cons_self
    obtain ⟨hne, hsolid⟩ := expansions_solid _ hmem
    exact ⟨by simpa using hne, by simpa using hsolid⟩
  | none =>
    cases hfind : caseRuns.find? (·.holds c.toNat) with
    | some run =>
      have hholds : run.holds c.toNat = true := by simpa using List.find?_some hfind
      exact isWord_singleton (isBlank_moved (List.mem_of_find?_eq_some hfind) hholds)
    | none => exact isWord_singleton h

theorem toList_upper (s : String) : (upper s).toList = s.toList.flatMap upperChar :=
  String.toList_ofList

theorem IsWord.upper {w : String} (h : IsWord w.toList) : IsWord (upper w).toList := by
  rw [toList_upper]
  obtain ⟨hne, hsolid⟩ := h
  obtain ⟨c, hc⟩ := List.exists_mem_of_ne_nil _ hne
  constructor
  · intro hnil
    exact (isWord_upperChar (hsolid c hc)).ne_nil (List.flatMap_eq_nil_iff.mp hnil c hc)
  · intro d hd
    obtain ⟨c, hc, hd⟩ := List.mem_flatMap.mp hd
    exact (isWord_upperChar (hsolid c hc)).solid d hd

theorem upper_append (s t : String) : upper (s ++ t) = upper s ++ upper t := by
  rw [upper, String.toList_append, List.flatMap_append, String.ofList_append]
  rfl

theorem upper_separated (ws : List String) :
    upper (separated " " ws) = separated " " (ws.map upper) := by
  induction ws with
  | nil => rfl
  | cons w ws ih =>
    cases ws with
    | nil => rfl
    | cons next ws =>
      have hspace : upper " " = " " := by decide +kernel
      have hjoined : separated " " (w :: next :: ws) = w ++ " " ++ separated " " (next :: ws) := rfl
      rw [hjoined, upper_append, upper_append, hspace, ih]
      rfl

end TreeQuery.Text
