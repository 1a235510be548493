/-!
# Places in a YAML text

Line ends, indentation and the length of keys matter in YAML, so a reader knows the line, the
column and the octet at which it stands. All spellings of a line end are unified before a text is
read, save for the line and paragraph separators, which end a line and yet stand for themselves.
-/

namespace TreeQuery.Yaml

/-- Whether a line ends with the character. -/
def isBreak (c : Char) : Bool := c = '\n' || c = '\u2028' || c = '\u2029'

def isBlank (c : Char) : Bool := c = ' ' || c = '\t'

/-- The characters of names and handles. -/
def isWordChar (c : Char) : Bool := c.isAlphanum || c = '_' || c = '-'

def hexValue? (c : Char) : Option Nat :=
  if '0' ≤ c ∧ c ≤ '9' then some (c.toNat - '0'.toNat)
  else if 'a' ≤ c ∧ c ≤ 'f' then some (c.toNat - 'a'.toNat + 10)
  else if 'A' ≤ c ∧ c ≤ 'F' then some (c.toNat - 'A'.toNat + 10)
  else none

/-- Whether the text is at its end, or goes on with a blank or a line end. -/
def breaksOff : List Char → Bool
  | [] => true
  | c :: _ => isBlank c || isBreak c

/-- Whether the text is at its end, or goes on with a line end. -/
def lineEnds : List Char → Bool
  | [] => true
  | c :: _ => isBreak c

/-- The text that is still to be read, and where it begins: after how many octets, on which line, in
which column. -/
structure Cursor where
  rest : List Char
  offset : Nat
  line : Nat
  column : Nat

namespace Cursor

def start (text : List Char) : Cursor := ⟨text, 0, 0, 0⟩

/-- One character on. -/
def next (c : Cursor) : Cursor :=
  match c.rest with
  | [] => c
  | char :: rest =>
    if isBreak char then ⟨rest, c.offset + char.utf8Size, c.line + 1, 0⟩
    else ⟨rest, c.offset + char.utf8Size, c.line, c.column + 1⟩

/-- Some characters on. -/
def advance : Nat → Cursor → Cursor
  | 0, c => c
  | n + 1, c => advance n c.next

/-- Behind the characters of one kind that stand here. -/
def skip (kind : Char → Bool) (c : Cursor) : Cursor := c.advance (c.rest.takeWhile kind).length

/-- Behind a comment, if one begins here. It goes on to the end of the line. -/
def skipComment (c : Cursor) : Cursor :=
  if c.rest.head? = some '#' then c.skip (!isBreak ·) else c

/-- Behind the rest of a line that holds nothing but blanks and a comment. -/
def skipLine? (c : Cursor) : Option Cursor :=
  let c := (c.skip isBlank).skipComment
  if lineEnds c.rest then some c.next else none

/-- Three dashes that stand by themselves. -/
def atStartMarker (c : Cursor) : Bool :=
  c.column = 0 && c.rest.take 3 = ['-', '-', '-'] && breaksOff (c.rest.drop 3)

/-- Three points that stand by themselves. -/
def atEndMarker (c : Cursor) : Bool :=
  c.column = 0 && c.rest.take 3 = ['.', '.', '.'] && breaksOff (c.rest.drop 3)

/-- Whether a document begins or ends here. -/
def atMarker (c : Cursor) : Bool := c.atStartMarker || c.atEndMarker

/-- Behind a byte order mark at the start of a line, which takes a column. -/
def skipMark (c : Cursor) : Cursor :=
  if c.column = 0 && c.rest.head? = some '\uFEFF' then c.next else c

/-- The next token, and whether a key may begin there. Tabs are blanks within a line and in flow
style, but not where a key may begin; every line of a block may begin one. -/
def toToken (flow : Bool) : Nat → (keyAllowed : Bool) → Cursor → Cursor × Bool
  | 0, keyAllowed, c => (c, keyAllowed)
  | fuel + 1, keyAllowed, c =>
    let c := c.skipMark
    let c := (c.skip fun char => char = ' ' || (char = '\t' && (flow || !keyAllowed))).skipComment
    if c.rest.head?.any isBreak then toToken flow fuel (keyAllowed || !flow) c.next
    else (c, keyAllowed)

end Cursor

end TreeQuery.Yaml
