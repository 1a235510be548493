import TreeQuery.Yaml.Cursor

/-!
# YAML block scalars

A block scalar takes whole lines by their indentation. A literal one keeps its line ends; in a
folded one the line ends between two lines of running text fold.
-/

namespace TreeQuery.Yaml

/-- What becomes of the line ends behind a block scalar. -/
inductive Chomping
  | strip | clip | keep

/-- The signs behind the mark of a block scalar: the treatment of the line ends behind it, and by
how many columns it is indented. -/
structure BlockHead where
  chomping : Chomping
  extra : Option Nat

namespace BlockHead

/-- A digit says by how many columns the lines are indented, and is not zero. -/
def readExtra? (c : Cursor) : Option (Option Nat × Cursor) :=
  match c.rest with
  | digit :: _ =>
    if digit = '0' then none
    else if digit.isDigit then some (some (digit.toNat - '0'.toNat), c.next)
    else some (none, c)
  | [] => some (none, c)

def readChomping (c : Cursor) : Chomping × Cursor :=
  match c.rest with
  | '+' :: _ => (.keep, c.next)
  | '-' :: _ => (.strip, c.next)
  | _ => (.clip, c)

/-- The head of a block scalar behind its mark, with its two signs in either order, and the place
where the next line begins. -/
def read? (c : Cursor) : Option (BlockHead × Cursor) := do
  match readChomping c with
  | (.clip, c) =>
    let (extra, c) ← readExtra? c
    let (chomping, c) := if extra.isSome then readChomping c else (.clip, c)
    return (⟨chomping, extra⟩, ← c.skipLine?)
  | (chomping, c) =>
    let (extra, c) ← readExtra? c
    return (⟨chomping, extra⟩, ← c.skipLine?)

end BlockHead

/-- Passes over indentation and blank lines: the furthest column reached, the line ends, and the
place behind them. While the indentation is not known, every blank belongs to it. -/
def readBlankLines (indent : Option Nat) :
    Nat → (furthest : Nat) → Cursor → Option (Nat × List Char × Cursor)
  | 0, _, _ => none
  | fuel + 1, furthest, cursor =>
    let spaces := (cursor.rest.takeWhile (· = ' ')).length
    let cursor := cursor.advance <| match indent with
      | some indent => min spaces (indent - cursor.column)
      | none => spaces
    let furthest := max furthest cursor.column
    match cursor.rest with
    | [] => some (furthest, [], cursor)
    | c :: _ =>
      if c = '\t' && indent.all (cursor.column < ·) then none
      else if isBreak c then do
        let (furthest, ends, cursor) ← readBlankLines indent fuel furthest cursor.next
        return (furthest, c :: ends, cursor)
      else some (furthest, [], cursor)

/-- What a line of a block scalar is joined to the lines before it by: the end of the last line with
text and those of the blank lines since. -/
def blockGap (folds : Bool) (lineEnd : Option Char) (blankEnds : List Char) : List Char :=
  if folds && lineEnd = some '\n' then if blankEnds.isEmpty then [' '] else blankEnds
  else lineEnd.toList ++ blankEnds

/-- The lines of a block scalar at their indentation. The line before them ended in `lineEnd`, and
`blankBefore` says whether it began with a blank. -/
def readBlockLines (folded : Bool) (chomping : Chomping) (indent : Nat) :
    Nat → (lineEnd : Option Char) → (blankEnds : List Char) → (blankBefore : Bool) → Cursor →
      Option (List Char × Cursor)
  | 0, _, _, _, _ => none
  | fuel + 1, lineEnd, blankEnds, blankBefore, cursor =>
    if cursor.column = indent ∧ cursor.rest ≠ [] then do
      let blank := cursor.rest.head?.any isBlank
      let line := cursor.rest.takeWhile (!isBreak ·)
      let after := cursor.advance line.length
      let (_, ends, next) ← readBlankLines (some indent) fuel 0 after.next
      let (text, last) ← readBlockLines folded chomping indent fuel after.rest.head? ends blank next
      return (blockGap (folded && !blankBefore && !blank) lineEnd blankEnds ++ line ++ text, last)
    else
      let text := match chomping with
        | .strip => []
        | .clip => lineEnd.toList
        | .keep => lineEnd.toList ++ blankEnds
      some (text, cursor)

/-- A block scalar in a block at column `outer`, whose mark has been read. If its head does not say
so, it is indented like its first line with text, or like a longer blank line before that. -/
def readBlockScalar? (fuel : Nat) (folded : Bool) (outer : Int) (cursor : Cursor) :
    Option (List Char × Cursor) := do
  let (head, cursor) ← BlockHead.read? cursor
  let given := head.extra.map fun extra => if 0 ≤ outer then outer.toNat + extra else extra
  let (furthest, ends, cursor) ← readBlankLines given fuel 0 cursor
  let indent := given.getD (max furthest (max (outer + 1).toNat 1))
  readBlockLines folded head.chomping indent fuel none ends false cursor

end TreeQuery.Yaml
