import TreeQuery.Yaml.Node

/-!
# YAML documents

The one document of a text, as markup: a scalar stands for its text however it is written, an alias
for the node with its anchor, and a missing value for an empty collection.
-/

namespace TreeQuery.Yaml

/-- The directives in front of a document, of which it may have one for the version and one for each
handle: the handles they define. -/
def readDirectives? (version : Bool) (handles : Handles) :
    List Sign → Option (Handles × List Sign)
  | .token (.directive (.version major minor)) :: rest =>
    if version || major ≠ 1 || (minor ≠ 1 && minor ≠ 2) then none
    else readDirectives? true handles rest
  | .token (.directive (.tag handle expansion)) :: rest =>
    if (handles.lookup handle).isSome then none
    else readDirectives? version (handles ++ [(handle, expansion)]) rest
  | rest => some (handles, rest)

def Sign.endsDocument : Sign → Bool
  | .token .documentEnd => true
  | _ => false

/-- Whether nothing stands between the start and the end of a document. -/
def isEmptyDocument : List Sign → Bool
  | [] => true
  | .token (.directive _) :: _ => true
  | .token .documentStart :: _ => true
  | .token .documentEnd :: _ => true
  | _ => false

/-- The root of a document with what follows it. A document has a start when directives stand before
it, and may be empty when it has one. -/
def readRoot? (signs : List Sign) : Option (Node × List Sign) := do
  let fuel := 2 * signs.length + 2
  match signs with
  | [] => return (.missing, [])
  | .token (.directive _) :: _ | .token .documentStart :: _ =>
    let (handles, rest) ← readDirectives? false [] signs
    match rest with
    | .token .documentStart :: rest =>
      if isEmptyDocument rest then return (.missing, rest)
      else readNode (handles ++ Tag.knownHandles) fuel true false rest
    | _ => none
  | _ => readNode Tag.knownHandles fuel true false signs

mutual
/-- The nodes with anchors, in the order of the text. -/
def Node.anchored : Node → List (Nat × Node)
  | .aliasOf _ => []
  | .scalar anchor content => (anchor.map (·, .scalar anchor content)).toList
  | .sequence anchor items =>
    (anchor.map (·, .sequence anchor items)).toList ++ anchoredItems items
  | .mapping anchor entries =>
    (anchor.map (·, .mapping anchor entries)).toList ++ anchoredEntries entries

def anchoredItems : List Node → List (Nat × Node)
  | [] => []
  | item :: items => item.anchored ++ anchoredItems items

def anchoredEntries : List (Node × Node) → List (Nat × Node)
  | [] => []
  | (key, value) :: entries => key.anchored ++ value.anchored ++ anchoredEntries entries
end

/-- A node of a document, with the anchored nodes of the document, the last one first. -/
structure Place where
  node : Node
  anchored : List (Nat × Node)

namespace Place

/-- The place of another node of the document. -/
def move (p : Place) (node : Node) : Place := ⟨node, p.anchored⟩

/-- The node that stands here, where an alias stands for the last node with its anchor. -/
def target (p : Place) : Node :=
  match p.node with
  | .aliasOf anchor => (p.anchored.lookup anchor).getD .missing
  | node => node

/-- The spellings of the truth values. -/
def flagOf? (text : String) : Option Bool :=
  if ["true", "True", "TRUE"].contains text then some true
  else if ["false", "False", "FALSE"].contains text then some false
  else none

def text? (p : Place) : Option String :=
  match p.target with
  | .scalar _ content => some content.text
  | _ => none

/-- A truth value is a plain scalar, or a literal one that is tagged as a truth value. -/
def flag? (p : Place) : Option Bool :=
  match p.target with
  | .scalar _ ⟨text, .plain, _⟩ => flagOf? text
  | .scalar _ ⟨text, .literal, some tag⟩ => if tag = Tag.flag then flagOf? text else none
  | _ => none

def items? (p : Place) : Option (List Place) :=
  match p.target with
  | .sequence _ items => some (items.map p.move)
  | .scalar _ ⟨"", .plain, _⟩ => some []
  | _ => none

/-- The entries of a mapping all of whose keys are texts. -/
def entries? (p : Place) : Option (List (String × Place)) :=
  match p.target with
  | .mapping _ entries =>
    entries.mapM fun (key, value) => (p.move key).text?.map (·, p.move value)
  | .scalar _ ⟨"", .plain, _⟩ => some []
  | _ => none

instance : Markup Place where
  text? := text?
  flag? := flag?
  items? := items?
  entries? := entries?
  bareFields? _ := none

/-- The root of the one document that a text holds; only ends of documents may follow it. -/
def read? (text : String) : Option Place := do
  let signs ← numberAnchors [] (← tokens? text)
  let (root, rest) ← readRoot? signs
  if rest.all Sign.endsDocument then some ⟨root, root.anchored.reverse⟩ else none

end Place

end TreeQuery.Yaml
