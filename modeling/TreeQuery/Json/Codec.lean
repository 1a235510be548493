import TreeQuery.Json.Reader
import TreeQuery.Json.Writer

/-!
# JSON codecs

What documents are written and read with. Whoever reads a document or writes one takes the codec as
a parameter, and the standard one unless told otherwise.

Codecs need not agree on numbers. The standard one reads every decimal as the nearest floating-point
number; one that trades the last bit for speed may read a neighbour of it, even for a text of its
own, and may take a whole number that is longer than a word for a floating-point number. So the
numbers of a document come back only as far as its codec keeps them.
-/

namespace TreeQuery.Json

/-- How many arrays and objects of a text may stand inside one another. -/
def nestingLimit : Nat := 127

/-- A way to write values as texts and to read texts. -/
structure Codec where
  /-- Without blanks. -/
  write : Value → String
  /-- With one item or member a line. -/
  writePretty : Value → String
  /-- Nothing is read of a text that is not whole, unless it begins an array or an object. -/
  read : String → Option Reading

namespace Codec

/-- The value of a whole text. -/
def value? (json : Codec) (text : String) : Option Value :=
  (json.read text).bind fun reading => if reading.isWhole then some reading.value else none

/-- Writes the shortest decimals, and reads every decimal as the nearest floating-point number. -/
def standard : Codec where
  write := Value.compact
  writePretty := Value.pretty
  read := Reading.ofText?

end Codec

end TreeQuery.Json
