import TreeQuery.Yaml.Document

/-!
# Following aliases

A few lines of aliases can stand for a huge tree, so a document is read only if reading it follows
few aliases. How many are followed depends on what is read: fields that are not looked at may hold
any aliases.
-/

namespace TreeQuery.Yaml

/-- What is read of a tree. Of a record, only the named fields are. -/
inductive Shape
  | text
  | list (item : Shape)
  | map (value : Shape)
  | record (fields : List (String × Shape))

mutual
/-- The nodes of a tree and the ends of its collections. -/
def Node.marks : Node → Nat
  | .aliasOf _ => 1
  | .scalar _ _ => 1
  | .sequence _ items => 2 + marksOfItems items
  | .mapping _ entries => 2 + marksOfEntries entries

def marksOfItems : List Node → Nat
  | [] => 0
  | item :: items => item.marks + marksOfItems items

def marksOfEntries : List (Node × Node) → Nat
  | [] => 0
  | (key, value) :: entries => key.marks + value.marks + marksOfEntries entries
end

def Node.isAlias : Node → Bool
  | .aliasOf _ => true
  | _ => false

namespace Place

/-- How many aliases stand for the node itself and for the names of its entries. -/
def aliases (p : Place) : Nat :=
  let names := match p.target with
    | .mapping _ entries => entries.countP (·.1.isAlias)
    | _ => 0
  names + if p.node.isAlias then 1 else 0

end Place

/-- A part of what may still be followed. -/
def spend? (amount budget : Nat) : Option Nat :=
  if amount ≤ budget then some (budget - amount) else none

namespace Shape

mutual
/-- Follows the aliases that are met when the shape is read, at most as many as a budget allows, and
gives what is left of it. -/
def follow? : Shape → Place → Nat → Option Nat
  | .text, p, budget => spend? p.aliases budget
  | .list item, p, budget => do
    let budget ← spend? p.aliases budget
    (p.items?.getD []).foldlM (fun budget p => item.follow? p budget) budget
  | .map value, p, budget => do
    let budget ← spend? p.aliases budget
    (p.entries?.getD []).foldlM (fun budget entry => value.follow? entry.2 budget) budget
  | .record fields, p, budget => do
    followFields? fields (p.entries?.getD []) (← spend? p.aliases budget)

/-- Follows the aliases in the entries with the names of some fields. -/
def followFields? : List (String × Shape) → List (String × Place) → Nat → Option Nat
  | [], _, budget => some budget
  | (name, shape) :: fields, entries, budget => do
    let named := entries.filter (·.1 = name)
    let budget ← named.foldlM (fun budget entry => shape.follow? entry.2 budget) budget
    followFields? fields entries budget
end

end Shape

/-- The root of the document that a text holds, if reading it in a shape follows at most a hundred
aliases for each mark of the document. -/
def Place.readAs? (shape : Shape) (text : String) : Option Place := do
  let root ← Place.read? text
  if (shape.follow? root (100 * root.node.marks)).isSome then some root else none

end TreeQuery.Yaml
