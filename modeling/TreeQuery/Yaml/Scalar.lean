import TreeQuery.Yaml.Cursor

/-!
# YAML scalars within lines

Quoted and plain scalars run over line ends, which fold: one line end becomes a blank, and of
several all but the first remain. Line and paragraph separators do not fold.
-/

namespace TreeQuery.Yaml

/-- How a scalar is written. -/
inductive Style
  | plain | quoted | literal | folded
  deriving DecidableEq

/-! ## Folding -/

/-- What stands between two characters of a scalar: blanks, or line ends, of which the first is left
out when it is escaped. Blanks beside a line end do not count. -/
inductive Gap
  | blanks (text : List Char)
  | breaks (first : Option Char) (others : List Char)

namespace Gap

def none : Gap := .blanks []

def isNone : Gap → Bool
  | .blanks [] => true
  | _ => false

def hasBreak : Gap → Bool
  | .blanks _ => false
  | .breaks _ _ => true

/-- The gap with one more blank or line end. -/
def add (c : Char) : Gap → Gap
  | .blanks text => if isBreak c then .breaks (some c) [] else .blanks (text ++ [c])
  | .breaks first others => .breaks first (if isBreak c then others ++ [c] else others)

/-- What remains of a gap. -/
def text : Gap → List Char
  | .blanks text => text
  | .breaks (some '\n') [] => [' ']
  | .breaks (some '\n') others => others
  | .breaks first others => first.toList ++ others

end Gap

/-! ## Quoted scalars -/

/-- The character that an escape letter stands for. -/
def escaped? : Char → Option Char
  | '0' => some '\x00'
  | 'a' => some '\x07'
  | 'b' => some '\x08'
  | 't' => some '\t'
  | '\t' => some '\t'
  | 'n' => some '\n'
  | 'v' => some '\x0b'
  | 'f' => some '\x0c'
  | 'r' => some '\r'
  | 'e' => some '\x1b'
  | ' ' => some ' '
  | '"' => some '"'
  | '/' => some '/'
  | '\\' => some '\\'
  | 'N' => some (Char.ofNat 0x85)
  | '_' => some (Char.ofNat 0xA0)
  | 'L' => some (Char.ofNat 0x2028)
  | 'P' => some (Char.ofNat 0x2029)
  | _ => none

/-- How many hexadecimal digits follow an escape letter. -/
def escapeWidth? : Char → Option Nat
  | 'x' => some 2
  | 'u' => some 4
  | 'U' => some 8
  | _ => none

/-- The character whose code point the digits write. -/
def charOfHex? (width : Nat) (cs : List Char) : Option Char := do
  let digits ← (cs.take width).mapM hexValue?
  let code := digits.foldl (fun n d => 16 * n + d) 0
  if digits.length = width ∧ code.isValidChar then some (Char.ofNat code) else none

/-- What a backslash and the characters behind it stand for, and how many of these it takes. -/
def readEscape? : List Char → Option (Char × Nat)
  | [] => none
  | letter :: rest =>
    match escapeWidth? letter with
    | some width => (charOfHex? width rest).map (·, width + 1)
    | none => (escaped? letter).map (·, 1)

/-- A scalar in single quotes whose opening quote has been read; a quote in it is doubled. No marker
of a document may stand in it. -/
def readSingle : Nat → Gap → Cursor → Option (List Char × Cursor)
  | 0, _, _ => none
  | fuel + 1, gap, cursor =>
    if cursor.atMarker then none
    else
      match cursor.rest with
      | [] => none
      | '\x27' :: '\x27' :: _ => do
        let (text, cursor) ← readSingle fuel .none (cursor.advance 2)
        return (gap.text ++ '\x27' :: text, cursor)
      | '\x27' :: _ => some (gap.text, cursor.next)
      | c :: _ =>
        if isBlank c || isBreak c then readSingle fuel (gap.add c) cursor.next
        else do
          let (text, cursor) ← readSingle fuel .none cursor.next
          return (gap.text ++ c :: text, cursor)

/-- A scalar in double quotes whose opening quote has been read. -/
def readDouble : Nat → Gap → Cursor → Option (List Char × Cursor)
  | 0, _, _ => none
  | fuel + 1, gap, cursor =>
    if cursor.atMarker then none
    else
      match cursor.rest with
      | [] => none
      | '"' :: _ => some (gap.text, cursor.next)
      | '\\' :: rest =>
        if rest.head?.any isBreak then do
          let (text, cursor) ← readDouble fuel (.breaks none []) (cursor.advance 2)
          return (gap.text ++ text, cursor)
        else do
          let (c, taken) ← readEscape? rest
          let (text, cursor) ← readDouble fuel .none (cursor.advance (taken + 1))
          return (gap.text ++ c :: text, cursor)
      | c :: _ =>
        if isBlank c || isBreak c then readDouble fuel (gap.add c) cursor.next
        else do
          let (text, cursor) ← readDouble fuel .none cursor.next
          return (gap.text ++ c :: text, cursor)

/-! ## Plain scalars -/

def isFlowMark (c : Char) : Bool := [',', '[', ']', '{', '}'].contains c

/-- The characters that mean something else where a scalar could begin. -/
def isIndicator (c : Char) : Bool :=
  ['-', '?', ':', ',', '[', ']', '{', '}', '#', '&', '*', '!', '|', '>', '\x27', '"', '%', '@',
    '\x60'].contains c

/-- Whether a plain scalar begins here. A dash may begin one when no blank follows, and outside
flow style a question mark or a colon likewise. -/
def beginsPlain (flow : Bool) : List Char → Bool
  | [] => false
  | c :: rest =>
    if isIndicator c then
      (c = '-' && !rest.head?.any isBlank) || (!flow && (c = '?' || c = ':') && !breaksOff rest)
    else !isBlank c && !isBreak c

/-- A plain scalar with the place behind all blanks and line ends that follow it, and whether a line
end is among these. It ends before a comment, a marker, a colon that ends a key, in flow style a
flow mark, and in a block a line that stands further left than `least`, up to where no tab may
stand. -/
def readPlain (flow : Bool) (least : Int) :
    Nat → Gap → Cursor → Option (List Char × Bool × Cursor)
  | 0, _, _ => none
  | fuel + 1, gap, cursor =>
    match cursor.rest with
    | [] => some ([], gap.hasBreak, cursor)
    | c :: rest =>
      if c = '\t' && gap.hasBreak && cursor.column < least then none
      else if isBlank c || isBreak c then readPlain flow least fuel (gap.add c) cursor.next
      else if (gap.hasBreak && !flow && cursor.column < least) || cursor.atMarker ||
          (c = '#' && !gap.isNone) then some ([], gap.hasBreak, cursor)
      else if flow && c = ':' && rest.head?.any (fun d => isFlowMark d || d = '?') then none
      else if (c = ':' && breaksOff rest) || (flow && isFlowMark c) then
        some ([], gap.hasBreak, cursor)
      else do
        let (text, ended, cursor) ← readPlain flow least fuel .none cursor.next
        return (gap.text ++ c :: text, ended, cursor)

end TreeQuery.Yaml
