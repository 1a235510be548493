import TreeQuery.Filter.Written
import TreeQuery.Json.Codec
import TreeQuery.Json.Markup

/-!
# Filters in JSON

A literal is a JSON string, number or null, a column the record of its `entity` and `attribute`,
and a node a record with `op` and either `filters` or `variables`. Columns and nodes have no other
fields. A number with a fraction or an exponent is the floating-point number that the codec reads,
the nearest one if the codec is the standard one.
-/

namespace TreeQuery

open Json (Value)
open Markup

/-- Whole numbers of 64 bits are integers; any other number is a floating-point number, which for an
integer is the nearest one, unless it is too large. -/
def Literal.ofNumber? : Json.Number → Option Literal
  | .integer n =>
    if Int64.minValue.toInt ≤ n ∧ n ≤ Int64.maxValue.toInt then some (.integer (Int64.ofInt n))
    else (Binary64.ofDecimal? (n < 0) ⟨n.natAbs, 0⟩).map .float
  | .float x => some (.float x)

def Literal.toJson : Literal → Value
  | .text s => .string s
  | .integer n => .number (.integer n.toInt)
  | .float x => .number (.float x)
  | .null => .null

def Operand.ofJson? : Value → Option Operand
  | .null => some (.literal .null)
  | .string s => some (.literal (.text s))
  | .number n => (Literal.ofNumber? n).map .literal
  | .bool _ => none
  | v => do
    let field ← exactFields? ["entity", "attribute"] v
    let entity ← field "entity" >>= text?
    let name ← field "attribute" >>= text?
    return .column entity name

def Operand.toJson : Operand → Value
  | .literal value => value.toJson
  | .column entity name => .object [("entity", .string entity), ("attribute", .string name)]

/-- A field that may be missing or null, and otherwise is a list. -/
def optionalItems? {β : Type} (read : Value → Option β) : Option Value → Option (Option (List β))
  | none => some none
  | some .null => some none
  | some v => do
    let items ← items? v
    return some (← items.mapM read)

/-- A written filter whose nodes nest at most as often as the first argument says. -/
def WrittenFilter.ofJson? : Nat → Value → Option WrittenFilter
  | 0, _ => none
  | depth + 1, v => do
    let field ← exactFields? ["op", "filters", "variables"] v
    let token ← field "op" >>= text?
    let filters ← optionalItems? (WrittenFilter.ofJson? depth) (field "filters")
    let operands ← optionalItems? Operand.ofJson? (field "variables")
    return .node token filters operands

mutual
def WrittenFilter.toJson : WrittenFilter → Value
  | .node token filters operands =>
    .object (("op", .string token) ::
      (match filters with
        | none => []
        | some filters => [("filters", .array (WrittenFilter.allToJson filters))]) ++
      (operands.map fun operands =>
        ("variables", Value.array (operands.map Operand.toJson))).toList)

def WrittenFilter.allToJson : List WrittenFilter → List Value
  | [] => []
  | filter :: rest => filter.toJson :: WrittenFilter.allToJson rest
end

/-- Why a text is not a filter. -/
inductive ReadError
  | unreadable
  | malformed (fault : FilterFault)
  deriving DecidableEq

namespace Filter

/-- The filter that a value stands for, within a nesting limit: the whole value is read before
anything about its operators is checked. -/
def ofJson (limit : Nat) (v : Value) : Except ReadError Filter :=
  if limit < v.nesting then .error .unreadable
  else
    match WrittenFilter.ofJson? (limit + 1) v with
    | none => .error .unreadable
    | some written => (ofWritten written).mapError .malformed

def read (text : String) (json : Json.Codec := .standard) : Except ReadError Filter :=
  match json.value? text with
  | none => .error .unreadable
  | some v => ofJson Json.nestingLimit v

def toJson (filter : Filter) : Value := filter.toWritten.toJson

end Filter

end TreeQuery
