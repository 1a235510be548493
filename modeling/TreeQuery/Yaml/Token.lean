import TreeQuery.Yaml.BlockScalar
import TreeQuery.Yaml.Scalar
import TreeQuery.Yaml.Tag

/-!
# YAML tokens

The signs of a YAML text in a row. Indentation is told by tokens of its own where a block collection
begins and ends. A key is known only by the colon behind it, so the place where one may have begun
is remembered until then; it is on the same line and at most 1024 octets away.
-/

namespace TreeQuery.Yaml

inductive Token
  | directive (d : Directive)
  | documentStart
  | documentEnd
  | blockSequence
  | blockMapping
  | blockEnd
  | flowSequence
  | flowSequenceEnd
  | flowMapping
  | flowMappingEnd
  | item
  | comma
  | key
  | value
  | anchor (name : List Char)
  | aliasOf (name : List Char)
  | tag (t : Tag)
  | scalar (style : Style) (text : List Char)

/-- Where a key may have begun: the number of its first token and its place. It is required where
nothing but a key may stand. -/
structure KeyPlace where
  required : Bool
  number : Nat
  offset : Nat
  line : Nat
  column : Nat

/-- Whether a key that began there can no longer end here. -/
def KeyPlace.isPast (place : KeyPlace) (cursor : Cursor) : Bool :=
  place.line < cursor.line || place.offset + 1024 < cursor.offset

/-- A text read up to a place: the tokens so far, the last one first, the columns of the open block
collections, -1 where none is open, and the place of a possible key on every level of flow style. -/
structure Tokens where
  cursor : Cursor
  read : List Token
  count : Nat
  keyAllowed : Bool
  indent : Int
  outerIndents : List Int
  key? : Option KeyPlace
  outerKeys : List (Option KeyPlace)

namespace Tokens

def start (text : List Char) : Tokens := ⟨.start text, [], 0, true, -1, [], none, []⟩

/-- Whether the place is within a flow collection. -/
def inFlow (s : Tokens) : Bool := !s.outerKeys.isEmpty

def add (token : Token) (s : Tokens) : Tokens :=
  { s with read := token :: s.read, count := s.count + 1 }

/-- Puts a token in front of the one of the given number. -/
def insertAt (number : Nat) (token : Token) (s : Tokens) : Tokens :=
  let later := s.count - number
  { s with read := s.read.take later ++ token :: s.read.drop later, count := s.count + 1 }

def moveTo (cursor : Cursor) (s : Tokens) : Tokens := { s with cursor := cursor }

def allowKey (allowed : Bool) (s : Tokens) : Tokens := { s with keyAllowed := allowed }

/-- Gives up a possible key of the present level, unless one is required. -/
def dropKey? (s : Tokens) : Option Tokens :=
  if s.key?.any (·.required) then none else some { s with key? := none }

/-- Remembers that a key may begin here. -/
def saveKey? (s : Tokens) : Option Tokens :=
  if s.keyAllowed then do
    let s ← s.dropKey?
    return { s with key? := some ⟨!s.inFlow && s.indent = s.cursor.column, s.count, s.cursor.offset,
      s.cursor.line, s.cursor.column⟩ }
  else some s

/-- Gives up a possible key of the present level that can no longer end here. Those of the levels
around it are looked at once their level is reached again. -/
def dropPastKey? (s : Tokens) : Option Tokens :=
  if s.key?.any (·.isPast s.cursor) then s.dropKey? else some s

/-- Opens a block collection at a column, if it stands further right than the one around it. Its
token comes before that of the given number, or last. -/
def openBlock (column : Nat) (number : Option Nat) (token : Token) (s : Tokens) : Tokens :=
  if !s.inFlow && s.indent < column then
    let s := { s with indent := column, outerIndents := s.indent :: s.outerIndents }
    match number with
    | some number => s.insertAt number token
    | none => s.add token
  else s

/-- Closes block collections from one at column `indent` outwards, as long as they stand further
right than a column. -/
def closeFrom (column : Int) (s : Tokens) : Int → List Int → Tokens
  | indent, [] => { s with indent := indent, outerIndents := [] }
  | indent, outer :: outers =>
    if column < indent then closeFrom column (s.add .blockEnd) outer outers
    else { s with indent := indent, outerIndents := outer :: outers }

/-- Closes the block collections that stand further right than a column. -/
def closeBlocks (column : Int) (s : Tokens) : Tokens :=
  if s.inFlow then s else s.closeFrom column s.indent s.outerIndents

/-! ## One token -/

/-- The sign of a token with the place behind it. -/
def sign (length : Nat) (token : Token) (s : Tokens) : Tokens :=
  (s.add token).moveTo (s.cursor.advance length)

/-- A directive or a marker of a document, before which every block ends. -/
def betweenDocuments? (s : Tokens) : Option Tokens :=
  return ((← (s.closeBlocks (-1)).dropKey?).allowKey false)

def openFlow? (token : Token) (s : Tokens) : Option Tokens := do
  let s ← s.saveKey?
  let s := { s with key? := none, outerKeys := s.key? :: s.outerKeys }
  return (s.allowKey true).sign 1 token

def closeFlow? (token : Token) (s : Tokens) : Option Tokens := do
  let s ← s.dropKey?
  let s := match s.outerKeys with
    | key :: keys => { s with key? := key, outerKeys := keys }
    | [] => s
  return (s.allowKey false).sign 1 token

/-- An item of a block sequence or an explicit key, which begins a block collection where none is
open at its column. -/
def entry? (collection token : Token) (keyAllowed : Bool) (s : Tokens) : Option Tokens := do
  if !s.inFlow && !s.keyAllowed then none
  else
    let s ← (s.openBlock s.cursor.column none collection).dropKey?
    return (s.allowKey keyAllowed).sign 1 token

/-- A colon. The tokens that tell a key stand before the first token of the key. -/
def value? (s : Tokens) : Option Tokens :=
  match s.key? with
  | some place =>
    let s := (s.insertAt place.number .key).openBlock place.column place.number .blockMapping
    let s := { s with key? := none }
    some ((s.allowKey false).sign 1 .value)
  | none =>
    if !s.inFlow && !s.keyAllowed then none
    else
      let s := s.openBlock s.cursor.column none .blockMapping
      some ((s.allowKey !s.inFlow).sign 1 .value)

/-- The name of an anchor or an alias, which does not end just anywhere. -/
def name? (s : Tokens) : Option (List Char × Cursor) :=
  let name := (s.cursor.rest.drop 1).takeWhile isWordChar
  let after := s.cursor.advance (name.length + 1)
  if name ≠ [] ∧ (breaksOff after.rest ∨
      after.rest.head?.any fun c => ['?', ':', ',', ']', '}', '%', '@', '\x60'].contains c) then
    some (name, after)
  else none

def anchor? (token : List Char → Token) (s : Tokens) : Option Tokens := do
  let s ← s.saveKey?
  let (name, after) ← s.name?
  return ((s.allowKey false).add (token name)).moveTo after

def tag? (s : Tokens) : Option Tokens := do
  let s ← s.saveKey?
  let (tag, after) ← Tag.read? s.inFlow s.cursor
  return ((s.allowKey false).add (.tag tag)).moveTo after

def blockScalar? (fuel : Nat) (style : Style) (s : Tokens) : Option Tokens := do
  let s ← s.dropKey?
  let (text, after) ← readBlockScalar? fuel (style = .folded) s.indent s.cursor.next
  return ((s.allowKey true).add (.scalar style text)).moveTo after

def quoted? (fuel : Nat) (read : Nat → Gap → Cursor → Option (List Char × Cursor))
    (s : Tokens) : Option Tokens := do
  let s ← s.saveKey?
  let (text, after) ← read fuel .none s.cursor.next
  return ((s.allowKey false).add (.scalar .quoted text)).moveTo after

/-- A plain scalar. Behind the end of its line a key may begin. -/
def plain? (fuel : Nat) (s : Tokens) : Option Tokens := do
  let s ← s.saveKey?
  let (text, ended, after) ← readPlain s.inFlow (s.indent + 1) fuel .none s.cursor
  return ((s.allowKey ended).add (.scalar .plain text)).moveTo after

/-- The token that begins at the place reached. The fuel is for the characters of a scalar. -/
def step? (fuel : Nat) (s : Tokens) : Option Tokens :=
  let flow := s.inFlow
  if s.cursor.atStartMarker then return (← s.betweenDocuments?).sign 3 .documentStart
  else if s.cursor.atEndMarker then return (← s.betweenDocuments?).sign 3 .documentEnd
  else
    match s.cursor.rest with
    | [] => none
    | c :: rest =>
      if c = '%' && s.cursor.column = 0 then do
        let s ← s.betweenDocuments?
        let (directive, after) ← Directive.read? s.cursor
        return (s.add (.directive directive)).moveTo after
      else if c = '[' then s.openFlow? .flowSequence
      else if c = '{' then s.openFlow? .flowMapping
      else if c = ']' then s.closeFlow? .flowSequenceEnd
      else if c = '}' then s.closeFlow? .flowMappingEnd
      else if c = ',' then return ((← s.dropKey?).allowKey true).sign 1 .comma
      else if c = '-' && breaksOff rest then s.entry? .blockSequence .item true
      else if c = '?' && (flow || breaksOff rest) then s.entry? .blockMapping .key !flow
      else if c = ':' && (flow || breaksOff rest) then s.value?
      else if c = '*' then s.anchor? .aliasOf
      else if c = '&' then s.anchor? .anchor
      else if c = '!' then s.tag?
      else if c = '|' && !flow then s.blockScalar? fuel .literal
      else if c = '>' && !flow then s.blockScalar? fuel .folded
      else if c = '\x27' then s.quoted? fuel readSingle
      else if c = '"' then s.quoted? fuel readDouble
      else if beginsPlain flow (c :: rest) then s.plain? fuel
      else none

/-- The place of the next token, with the keys and the blocks closed that end before it. -/
def toNext? (fuel : Nat) (s : Tokens) : Option Tokens := do
  let (cursor, keyAllowed) := s.cursor.toToken s.inFlow fuel s.keyAllowed
  let s ← ((s.moveTo cursor).allowKey keyAllowed).dropPastKey?
  return s.closeBlocks s.cursor.column

/-- All tokens from a place on. Every token takes a character at least. -/
def readAll? : Nat → Tokens → Option (List Token)
  | 0, _ => none
  | fuel + 1, s => do
    let s ← s.toNext? (fuel + 1)
    if s.cursor.rest = [] then return (← (s.closeBlocks (-1)).dropKey?).read.reverse
    else readAll? fuel (← s.step? (fuel + 1))

end Tokens

/-- Line ends in all their spellings as line feeds, save for the two separators. -/
def unifyLineEnds : List Char → List Char
  | [] => []
  | '\r' :: '\n' :: rest => '\n' :: unifyLineEnds rest
  | c :: rest => (if c = '\r' ∨ c.toNat = 0x85 then '\n' else c) :: unifyLineEnds rest

/-- The characters that a text may hold. -/
def isAllowed (c : Char) : Bool :=
  let n := c.toNat
  n = 0x9 || n = 0xA || n = 0xD || (0x20 ≤ n && n ≤ 0x7E) || n = 0x85 || (0xA0 ≤ n && n ≤ 0xFFFD) ||
    0x10000 ≤ n

/-- The tokens of a text. -/
def tokens? (text : String) : Option (List Token) :=
  if text.toList.all isAllowed then
    let chars := unifyLineEnds text.toList
    Tokens.readAll? (chars.length + 2) (Tokens.start chars)
  else none

end TreeQuery.Yaml
