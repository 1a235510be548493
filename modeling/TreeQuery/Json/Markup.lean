import TreeQuery.Json.Value
import TreeQuery.Markup

/-!
# JSON as markup
-/

namespace TreeQuery.Json

/-- Every JSON value stands for itself alone. -/
instance : Markup Value where
  text?
    | .string s => some s
    | _ => none
  flag?
    | .bool b => some b
    | _ => none
  items?
    | .array items => some items
    | _ => none
  entries?
    | .object members => some members
    | _ => none
  bareFields?
    | .array items => some items
    | _ => none

end TreeQuery.Json
