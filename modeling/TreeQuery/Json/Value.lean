import TreeQuery.Binary64

/-!
# JSON values

The data model of JSON texts. An object keeps its members in the order of the text, repeated names
included: what to make of them is left to the reader of the value. A string may hold escapes that
are no characters, and a number may be too large for the floating-point format; such a text is JSON,
but there is no value for it, and it does no harm where it is not looked at.
-/

namespace TreeQuery.Json

/-- A number without fraction and exponent is an integer, of any size. Minus zero is no integer. -/
inductive Number
  | integer (n : Int)
  | float (x : Binary64)
  deriving DecidableEq

inductive Value
  | null
  | bool (b : Bool)
  | number (n : Number)
  | string (s : String)
  | array (items : List Value)
  | object (members : List (String × Value))
  /-- A string that is no text, an object with such a name, or a number that is too large. -/
  | garbled

mutual
/-- How many arrays and objects stand inside one another. -/
def Value.nesting : Value → Nat
  | .array items => nestingItems items + 1
  | .object members => nestingMembers members + 1
  | _ => 0

def nestingItems : List Value → Nat
  | [] => 0
  | v :: rest => max v.nesting (nestingItems rest)

def nestingMembers : List (String × Value) → Nat
  | [] => 0
  | (_, v) :: rest => max v.nesting (nestingMembers rest)
end

/-- The items of an array of strings. -/
def Value.strings (items : List String) : Value := .array (items.map .string)

end TreeQuery.Json
