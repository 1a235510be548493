/-!
# Separated lists
-/

namespace TreeQuery.Text

/-- The items with the separator between each two of them. -/
def separated (separator : String) : List String → String
  | [] => ""
  | [item] => item
  | item :: rest => item ++ separator ++ separated separator rest

theorem separated_eq_intercalate (separator : String) (items : List String) :
    separated separator items = separator.intercalate items := by
  induction items with
  | nil => rfl
  | cons item rest ih =>
    cases rest with
    | nil => simp [separated]
    | cons next rest =>
      rw [String.intercalate_cons_cons, ← ih]
      rfl

end TreeQuery.Text
