/-!
# Blanks and words

The characters with the Unicode property White_Space, and the words of a text: its maximal runs
of other characters.
-/

namespace TreeQuery.Text

/-- The code points that separate words. -/
def blanks : List Nat :=
  [0x9, 0xA, 0xB, 0xC, 0xD, 0x20, 0x85, 0xA0, 0x1680, 0x2000, 0x2001, 0x2002, 0x2003, 0x2004,
    0x2005, 0x2006, 0x2007, 0x2008, 0x2009, 0x200A, 0x2028, 0x2029, 0x202F, 0x205F, 0x3000]

def isBlank (c : Char) : Bool :=
  blanks.contains c.toNat

/-- Puts `c` in front of the first word when that word has begun, and begins a word otherwise. -/
def extendWord (c : Char) (begun : Bool) : List (List Char) → List (List Char)
  | [] => [[c]]
  | word :: rest => if begun then (c :: word) :: rest else [c] :: word :: rest

/-- The words of a text, none of which is empty. -/
def wordsOf : List Char → List (List Char)
  | [] => []
  | c :: rest =>
    if isBlank c then wordsOf rest
    else extendWord c (rest.head?.any (!isBlank ·)) (wordsOf rest)

/-- The words of a text in order. -/
def words (s : String) : List String :=
  (wordsOf s.toList).map String.ofList

end TreeQuery.Text
