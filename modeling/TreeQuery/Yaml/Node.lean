import TreeQuery.Markup
import TreeQuery.Yaml.Token

/-!
# YAML nodes

The tree of a YAML document. Flow collections are told by their brackets, block collections by the
tokens for their indentation. A node may carry an anchor, and an alias stands for the node with its
anchor.
-/

namespace TreeQuery.Yaml

structure Scalar where
  text : String
  style : Style
  tag : Option (List Char)
  deriving DecidableEq

inductive Node
  | aliasOf (anchor : Nat)
  | scalar (anchor : Option Nat) (content : Scalar)
  | sequence (anchor : Option Nat) (items : List Node)
  | mapping (anchor : Option Nat) (entries : List (Node × Node))

/-- An empty plain scalar. -/
def Scalar.empty (tag : Option (List Char)) : Scalar := ⟨"", .plain, tag⟩

/-- What stands where nothing is written. -/
def Node.missing : Node := .scalar none (.empty none)

/-! ## Nodes from tokens -/

/-- The tokens of a text in which anchors have numbers. -/
inductive Sign
  | token (t : Token)
  | anchor (number : Nat)
  | aliasOf (number : Nat)

/-- Gives every anchor the number of different names before it, and every alias the number that its
name has last been given. There is no alias before its anchor. -/
def numberAnchors : List (List Char × Nat) → List Token → Option (List Sign)
  | _, [] => some []
  | names, .anchor name :: rest => do
    let number := names.length
    let others := names.filter (·.1 ≠ name)
    return .anchor number :: (← numberAnchors ((name, number) :: others) rest)
  | names, .aliasOf name :: rest => do
    return .aliasOf (← names.lookup name) :: (← numberAnchors names rest)
  | names, token :: rest => do
    return .token token :: (← numberAnchors names rest)

/-- What a node carries: an anchor, a tag, or both. -/
structure Properties where
  anchor : Option Nat
  tag : Option (List Char)

def Properties.none : Properties := ⟨.none, .none⟩

abbrev Handles := List (List Char × List Char)

/-- The properties in front of a node, in either order. -/
def readProperties? (handles : Handles) : List Sign → Option (Properties × List Sign)
  | .anchor a :: .token (.tag t) :: rest => do
    return (⟨some a, some (← t.resolve? handles)⟩, rest)
  | .token (.tag t) :: .anchor a :: rest => do
    return (⟨some a, some (← t.resolve? handles)⟩, rest)
  | .anchor a :: rest => some (⟨some a, none⟩, rest)
  | .token (.tag t) :: rest => do return (⟨none, some (← t.resolve? handles)⟩, rest)
  | signs => some (.none, signs)

/-- The tag of a scalar; a bare exclamation mark says nothing about it. -/
def scalarTag (tag : Option (List Char)) : Option (List Char) := tag.filter (· ≠ ['!'])

/-- Whether nothing stands before an item, a key or the end of a block. -/
def endsItem : List Sign → Bool
  | .token .item :: _ => true
  | .token .blockEnd :: _ => true
  | _ => false

/-- Whether nothing stands before a key, its value or the end of a block mapping. -/
def endsEntry : List Sign → Bool
  | .token .key :: _ => true
  | .token .value :: _ => true
  | .token .blockEnd :: _ => true
  | _ => false

/-- Whether nothing stands before the end of an entry in flow style. -/
def endsFlowEntry (collectionEnd : Sign → Bool) : List Sign → Bool
  | .token .comma :: _ => true
  | sign :: _ => collectionEnd sign
  | [] => false

def Sign.endsSequence : Sign → Bool
  | .token .flowSequenceEnd => true
  | _ => false

def Sign.endsMapping : Sign → Bool
  | .token .flowMappingEnd => true
  | _ => false

def isValue : List Sign → Bool
  | .token .value :: _ => true
  | _ => false

mutual
/-- A node. Block collections may stand only in blocks, and only as the value of a key may a block
sequence do without indentation. -/
def readNode (handles : Handles) :
    Nat → (block asValue : Bool) → List Sign → Option (Node × List Sign)
  | 0, _, _, _ => none
  | _ + 1, _, _, .aliasOf a :: rest => some (.aliasOf a, rest)
  | fuel + 1, block, asValue, signs => do
    let (properties, signs) ← readProperties? handles signs
    match signs with
    | .token (.scalar style text) :: rest =>
      return (.scalar properties.anchor ⟨String.ofList text, style, scalarTag properties.tag⟩, rest)
    | .token .flowSequence :: rest =>
      let (items, rest) ← readFlowItems handles fuel true rest
      return (.sequence properties.anchor items, rest)
    | .token .flowMapping :: rest =>
      let (entries, rest) ← readFlowEntries handles fuel true rest
      return (.mapping properties.anchor entries, rest)
    | _ =>
      match signs, block, asValue with
      | .token .item :: _, _, true =>
        let (items, rest) ← readBareItems handles fuel signs
        return (.sequence properties.anchor items, rest)
      | .token .blockSequence :: rest, true, _ =>
        let (items, rest) ← readItems handles fuel rest
        return (.sequence properties.anchor items, rest)
      | .token .blockMapping :: rest, true, _ =>
        let (entries, rest) ← readEntries handles fuel rest
        return (.mapping properties.anchor entries, rest)
      | _, _, _ =>
        if properties.anchor.isSome || properties.tag.isSome then
          return (.scalar properties.anchor (.empty properties.tag), signs)
        else none

/-- The items of a block sequence up to its end. -/
def readItems (handles : Handles) : Nat → List Sign → Option (List Node × List Sign)
  | 0, _ => none
  | fuel + 1, .token .item :: rest => do
    let (item, rest) ←
      if endsItem rest then some (.missing, rest) else readNode handles fuel true false rest
    let (items, rest) ← readItems handles fuel rest
    return (item :: items, rest)
  | _ + 1, .token .blockEnd :: rest => some ([], rest)
  | _ + 1, _ => none

/-- The items of a block sequence without indentation, which ends where no item follows. -/
def readBareItems (handles : Handles) : Nat → List Sign → Option (List Node × List Sign)
  | 0, _ => none
  | fuel + 1, .token .item :: rest => do
    let (item, rest) ←
      if endsItem rest || endsEntry rest then some (.missing, rest)
      else readNode handles fuel true false rest
    let (items, rest) ← readBareItems handles fuel rest
    return (item :: items, rest)
  | _ + 1, signs => some ([], signs)

/-- The entries of a block mapping up to its end. -/
def readEntries (handles : Handles) :
    Nat → List Sign → Option (List (Node × Node) × List Sign)
  | 0, _ => none
  | fuel + 1, .token .key :: rest => do
    let (key, rest) ←
      if endsEntry rest then some (.missing, rest) else readNode handles fuel true true rest
    let (value, rest) ← match rest with
      | .token .value :: rest =>
        if endsEntry rest then some (.missing, rest) else readNode handles fuel true true rest
      | rest => some (.missing, rest)
    let (entries, rest) ← readEntries handles fuel rest
    return ((key, value) :: entries, rest)
  | _ + 1, .token .blockEnd :: rest => some ([], rest)
  | _ + 1, _ => none

/-- The value behind a key in flow style. -/
def readFlowValue (handles : Handles) (collectionEnd : Sign → Bool) :
    Nat → List Sign → Option (Node × List Sign)
  | 0, _ => none
  | fuel + 1, .token .value :: rest =>
    if endsFlowEntry collectionEnd rest then some (.missing, rest)
    else readNode handles fuel false false rest
  | _ + 1, rest => some (.missing, rest)

/-- The items of a flow sequence up to its end; before all but the first stands a comma. A key with
a value is an item of its own. The token behind an empty key is passed over. -/
def readFlowItems (handles : Handles) :
    Nat → (first : Bool) → List Sign → Option (List Node × List Sign)
  | 0, _, _ => none
  | _ + 1, _, .token .flowSequenceEnd :: rest => some ([], rest)
  | fuel + 1, first, signs => do
    let signs ← match first, signs with
      | true, signs => some signs
      | false, .token .comma :: rest => some rest
      | false, _ => none
    match signs with
    | .token .flowSequenceEnd :: rest => return ([], rest)
    | .token .key :: rest =>
      let (key, rest) ←
        if isValue rest || endsFlowEntry Sign.endsSequence rest then some (.missing, rest.drop 1)
        else readNode handles fuel false false rest
      let (value, rest) ← readFlowValue handles Sign.endsSequence fuel rest
      let (items, rest) ← readFlowItems handles fuel false rest
      return (.mapping none [(key, value)] :: items, rest)
    | signs =>
      let (item, rest) ← readNode handles fuel false false signs
      let (items, rest) ← readFlowItems handles fuel false rest
      return (item :: items, rest)

/-- The entries of a flow mapping up to its end; before all but the first stands a comma. A key may
stand without a value. -/
def readFlowEntries (handles : Handles) :
    Nat → (first : Bool) → List Sign → Option (List (Node × Node) × List Sign)
  | 0, _, _ => none
  | _ + 1, _, .token .flowMappingEnd :: rest => some ([], rest)
  | fuel + 1, first, signs => do
    let signs ← match first, signs with
      | true, signs => some signs
      | false, .token .comma :: rest => some rest
      | false, _ => none
    match signs with
    | .token .flowMappingEnd :: rest => return ([], rest)
    | .token .key :: rest =>
      let (key, rest) ←
        if isValue rest || endsFlowEntry Sign.endsMapping rest then some (.missing, rest)
        else readNode handles fuel false false rest
      let (value, rest) ← readFlowValue handles Sign.endsMapping fuel rest
      let (entries, rest) ← readFlowEntries handles fuel false rest
      return ((key, value) :: entries, rest)
    | signs =>
      let (key, rest) ← readNode handles fuel false false signs
      let (entries, rest) ← readFlowEntries handles fuel false rest
      return ((key, .missing) :: entries, rest)
end

end TreeQuery.Yaml
