import Mathlib.Tactic.Common
import TreeQuery.Json.Reader
import TreeQuery.Json.Writer

/-!
# JSON strings written and read

Every string is read back from its text, whatever its characters are and whatever stands behind it.

* `escape_cases`: the three ways in which a character is written;
* `exists_piece`: one piece of a string is read for it, and stands for the character;
* `readString_foldr`: the string comes back with what stands behind it.
-/

namespace TreeQuery.Json

/-- A character is written as an escape with a letter, as one with its number, or as it is. -/
theorem escape_cases (c : Char) (rest : List Char) :
    (∃ letter, letter ≠ 'u' ∧ escaped? letter = some c ∧
      escape c rest = '\\' :: letter :: rest) ∨
    (c.toNat < 32 ∧ escape c rest =
      '\\' :: 'u' :: '0' :: '0' :: hexDigit (c.toNat / 16) :: hexDigit c.toNat :: rest) ∨
    (¬ c.toNat < 32 ∧ c ≠ '"' ∧ c ≠ '\\' ∧ escape c rest = c :: rest) := by
  unfold escape
  split
  · next h => exact .inl ⟨'"', by decide, by rw [h]; rfl, rfl⟩
  split
  · next h => exact .inl ⟨'\\', by decide, by rw [h]; rfl, rfl⟩
  split
  · next h => exact .inl ⟨'b', by decide, by rw [h]; rfl, rfl⟩
  split
  · next h => exact .inl ⟨'f', by decide, by rw [h]; rfl, rfl⟩
  split
  · next h => exact .inl ⟨'n', by decide, by rw [h]; rfl, rfl⟩
  split
  · next h => exact .inl ⟨'r', by decide, by rw [h]; rfl, rfl⟩
  split
  · next h => exact .inl ⟨'t', by decide, by rw [h]; rfl, rfl⟩
  split
  · next h => exact .inr (.inl ⟨h, rfl⟩)
  · next hquote hslash _ _ _ _ _ h => exact .inr (.inr ⟨h, hquote, hslash, rfl⟩)

theorem length_escape (c : Char) (rest : List Char) : rest.length < (escape c rest).length := by
  rcases escape_cases c rest with ⟨_, _, _, h⟩ | ⟨_, h⟩ | ⟨_, _, _, h⟩ <;>
    simp only [h, List.length_cons] <;> omega

/-! ## Pieces -/

theorem unitOf?_hexDigit :
    ∀ n < 32, unitOf? '0' '0' (hexDigit (n / 16)) (hexDigit n) = some n := by decide

/-- A unit below the surrogates is a character of its own. -/
theorem joinPieces_unit {n : Nat} (h : n < 0xD800) (pieces : List Piece) :
    joinPieces (.unit n :: pieces) = (joinPieces pieces).map (Char.ofNat n :: ·) := by
  have hhigh : isHighUnit n = false := by
    simp only [isHighUnit, Bool.and_eq_false_iff, decide_eq_false_iff_not]
    omega
  have hlow : isLowUnit n = false := by
    simp only [isLowUnit, Bool.and_eq_false_iff, decide_eq_false_iff_not]
    omega
  cases pieces with
  | nil => simp [joinPieces, hhigh, hlow]
  | cons piece pieces => cases piece <;> simp [joinPieces, hhigh, hlow]

/-- One piece is read for a character that is written, and stands for the character. -/
theorem exists_piece (c : Char) (rest : List Char) :
    ∃ piece, (∀ pieces, joinPieces (piece :: pieces) = (joinPieces pieces).map (c :: ·)) ∧
      readPieces (escape c rest) =
        (readPieces rest).map fun (pieces, rest) => (piece :: pieces, rest) := by
  rcases escape_cases c rest with ⟨letter, hletter, hc, h⟩ | ⟨hc, h⟩ | ⟨hc, hquote, hslash, h⟩
  · refine ⟨.char c, fun _ => rfl, ?_⟩
    rw [h, readPieces, hc]
    · cases readPieces rest <;> rfl
    · intro _ _ _ _ _ hu
      exact absurd hu hletter
  · refine ⟨.unit c.toNat, fun pieces => ?_, ?_⟩
    · rw [joinPieces_unit (by omega), Char.ofNat_toNat]
    · rw [h, readPieces, unitOf?_hexDigit c.toNat hc]
      cases readPieces rest <;> rfl
  · refine ⟨.char c, fun _ => rfl, ?_⟩
    rw [h, readPieces, if_neg hc]
    · cases readPieces rest <;> rfl
    · exact hquote
    · intro _ _ _ _ _ hs
      exact absurd hs hslash
    · intro _ _ hs
      exact absurd hs hslash

/-! ## Strings -/

theorem exists_pieces (cs rest : List Char) :
    ∃ pieces, joinPieces pieces = some cs ∧
      readPieces (cs.foldr escape ('"' :: rest)) = some (pieces, rest) := by
  induction cs with
  | nil => exact ⟨[], rfl, rfl⟩
  | cons c cs ih =>
    obtain ⟨pieces, hjoin, hread⟩ := ih
    obtain ⟨piece, hfirst, hescape⟩ := exists_piece c (cs.foldr escape ('"' :: rest))
    refine ⟨piece :: pieces, ?_, ?_⟩
    · rw [hfirst, hjoin]
      rfl
    · rw [List.foldr_cons, hescape, hread]
      rfl

/-- A string is read back from behind its opening quote. -/
theorem readString_foldr (s : String) (rest : List Char) :
    readString (s.toList.foldr escape ('"' :: rest)) = some (some s, rest) := by
  obtain ⟨pieces, hjoin, hread⟩ := exists_pieces s.toList rest
  rw [readString, hread]
  simp [hjoin]

theorem length_writeString (s : String) (rest : List Char) :
    rest.length + 2 ≤ (writeString s rest).length := by
  have grows (cs : List Char) : rest.length < (cs.foldr escape ('"' :: rest)).length := by
    induction cs with
    | nil => simp
    | cons c cs ih => exact Nat.lt_trans ih (length_escape c _)
  have := grows s.toList
  rw [writeString, List.length_cons]
  omega

end TreeQuery.Json
