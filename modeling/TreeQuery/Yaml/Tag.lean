import TreeQuery.Yaml.Cursor

/-!
# YAML tags and directives

A tag is a handle with a suffix, or a whole tag between angle brackets; a directive says what a
handle stands for, or which version of YAML a document is written in. Tags are made of octets, held
as the characters of the same numbers, and end at an octet of zero.
-/

namespace TreeQuery.Yaml

/-- A tag as it is written. The empty handle stands for itself. -/
structure Tag where
  handle : List Char
  suffix : List Char
  deriving DecidableEq

inductive Directive
  | version (major minor : Nat)
  | tag (handle expansion : List Char)

namespace Tag

/-- A handle begins with an exclamation mark and may end with another one. -/
def readHandle (c : Cursor) : List Char × Cursor :=
  let name := (c.rest.drop 1).takeWhile isWordChar
  let after := c.advance (name.length + 1)
  match after.rest with
  | '!' :: _ => ('!' :: name ++ ['!'], after.next)
  | _ => ('!' :: name, after)

/-- Whether a handle is closed by a second exclamation mark. -/
def isClosed (handle : List Char) : Bool := 1 < handle.length && handle.getLast? = some '!'

/-- The characters of a tag besides those of names. -/
def tagMarks : List Char :=
  [';', '/', '?', ':', '@', '&', '=', '+', '$', '.', '%', '!', '~', '*', '\x27', '(', ')']

/-- The characters of a tag; flow marks are among them where the tag stands by itself. -/
def isTagChar (alone : Bool) (c : Char) : Bool :=
  isWordChar c || tagMarks.contains c || (alone && [',', '[', ']'].contains c)

/-- An octet written as a percent sign and two hexadecimal digits. -/
def readOctet? (c : Cursor) : Option (Nat × Cursor) :=
  match c.rest with
  | '%' :: high :: low :: _ => do
    return (16 * (← hexValue? high) + (← hexValue? low), c.advance 3)
  | _ => none

/-- How many octets a character takes that begins with the given one. -/
def octetCount? (octet : Nat) : Option Nat :=
  if octet < 0x80 then some 1
  else if octet < 0xC0 then none
  else if octet < 0xE0 then some 2
  else if octet < 0xF0 then some 3
  else if octet < 0xF8 then some 4
  else none

/-- Some further octets of a character. -/
def readContinuation? : Nat → Cursor → Option (List Char × Cursor)
  | 0, c => some ([], c)
  | n + 1, c => do
    let (octet, c) ← readOctet? c
    if 0x80 ≤ octet ∧ octet < 0xC0 then
      let (octets, c) ← readContinuation? n c
      return (Char.ofNat octet :: octets, c)
    else none

/-- The octets of a tag, where a percent sign begins the escape of a whole character. -/
def readOctets? (alone : Bool) : Nat → Cursor → Option (List Char × Cursor)
  | 0, _ => none
  | fuel + 1, c =>
    match c.rest with
    | '%' :: _ => do
      let (octet, c) ← readOctet? c
      let (octets, c) ← readContinuation? ((← octetCount? octet) - 1) c
      let (more, c) ← readOctets? alone fuel c
      return (Char.ofNat octet :: octets ++ more, c)
    | char :: _ =>
      if isTagChar alone char then do
        let (more, c) ← readOctets? alone fuel c.next
        return (char :: more, c)
      else some ([], c)
    | [] => some ([], c)

/-- The octets of a tag up to a zero. There is at least one octet, unless some were read before. -/
def readText? (alone begun : Bool) (c : Cursor) : Option (List Char × Cursor) := do
  let (octets, after) ← readOctets? alone (c.rest.length + 1) c
  if begun ∨ after.offset ≠ c.offset then return (octets.takeWhile (· ≠ '\x00'), after) else none

/-- A tag, at its exclamation mark. It is followed by a blank, a line end, or in flow style by a
comma. -/
def read? (flow : Bool) (c : Cursor) : Option (Tag × Cursor) := do
  let (tag, after) ← match c.rest with
    | '!' :: '<' :: _ => do
      let (text, after) ← readText? true false (c.advance 2)
      if after.rest.head? = some '>' then pure (Tag.mk [] text, after.next) else none
    | _ =>
      let (handle, after) := readHandle c
      if isClosed handle then do
        let (suffix, after) ← readText? false false after
        pure (Tag.mk handle suffix, after)
      else do
        let (more, after) ← readText? false true after
        let suffix := handle.drop 1 ++ more
        pure (if suffix = [] then Tag.mk [] ['!'] else Tag.mk ['!'] suffix, after)
  if breaksOff after.rest ∨ (flow ∧ after.rest.head? = some ',') then return (tag, after) else none

/-- The handles that every document knows. -/
def knownHandles : List (List Char × List Char) :=
  [(['!'], ['!']), (['!', '!'], "tag:yaml.org,2002:".toList)]

/-- The tag that is meant, if its handle is known. -/
def resolve? (handles : List (List Char × List Char)) (tag : Tag) : Option (List Char) :=
  if tag.handle = [] then some tag.suffix
  else (handles.lookup tag.handle).map (· ++ tag.suffix)

/-- The tag of the truth values. -/
def flag : List Char := "tag:yaml.org,2002:bool".toList

end Tag

namespace Directive

/-- A number of at most nine digits. -/
def readNumber? (c : Cursor) : Option (Nat × Cursor) :=
  let digits := c.rest.takeWhile Char.isDigit
  if 1 ≤ digits.length ∧ digits.length ≤ 9 then
    some (digits.foldl (fun n d => 10 * n + (d.toNat - '0'.toNat)) 0, c.advance digits.length)
  else none

def readVersion? (c : Cursor) : Option (Directive × Cursor) := do
  let (major, c) ← readNumber? (c.skip isBlank)
  if c.rest.head? = some '.' then
    let (minor, c) ← readNumber? c.next
    return (.version major minor, c)
  else none

def readTag? (c : Cursor) : Option (Directive × Cursor) := do
  let c := c.skip isBlank
  if c.rest.head? = some '!' then
    let (handle, c) := Tag.readHandle c
    if (handle.length = 1 ∨ Tag.isClosed handle) ∧ c.rest.head?.any isBlank then
      let (expansion, c) ← Tag.readText? true false (c.skip isBlank)
      if breaksOff c.rest then return (.tag handle expansion, c) else none
    else none
  else none

/-- A directive, at its percent sign, with the place behind its line. -/
def read? (c : Cursor) : Option (Directive × Cursor) := do
  let name := (c.rest.drop 1).takeWhile isWordChar
  let after := c.advance (name.length + 1)
  if breaksOff after.rest then
    let (directive, after) ← if name = "YAML".toList then readVersion? after
      else if name = "TAG".toList then readTag? after
      else none
    return (directive, ← after.skipLine?)
  else none

end Directive

end TreeQuery.Yaml
