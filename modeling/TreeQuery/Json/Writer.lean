import TreeQuery.Binary64.Shortest
import TreeQuery.Json.Value

/-!
# Writing JSON

Every writer takes the characters that follow and puts its own in front of them, so that what is
written before a given rest is the rest with the value's characters ahead of it.

* `Value.compact`: no blanks at all;
* `Value.pretty`: one item or member a line, two more blanks a level.
-/

namespace TreeQuery.Json

/-- A hexadecimal digit in lower case. -/
def hexDigit (n : Nat) : Char := Nat.digitChar (n % 16)

/-- Quotes, backslashes and the characters below the blank are escaped, the common ones by a
letter; all others stand as they are. -/
def escape (c : Char) (rest : List Char) : List Char :=
  if c = '"' then '\\' :: '"' :: rest
  else if c = '\\' then '\\' :: '\\' :: rest
  else if c = '\x08' then '\\' :: 'b' :: rest
  else if c = '\x0c' then '\\' :: 'f' :: rest
  else if c = '\n' then '\\' :: 'n' :: rest
  else if c = '\r' then '\\' :: 'r' :: rest
  else if c = '\t' then '\\' :: 't' :: rest
  else if c.toNat < 32 then
    '\\' :: 'u' :: '0' :: '0' :: hexDigit (c.toNat / 16) :: hexDigit c.toNat :: rest
  else c :: rest

/-- A string between quotes. -/
def writeString (s : String) (rest : List Char) : List Char :=
  '"' :: s.toList.foldr escape ('"' :: rest)

/-- Numbers that are not finite have no JSON form; `null` stands for them. -/
def Number.text : Number → List Char
  | .integer n => (toString n).toList
  | .float x =>
    if x.isFinite then
      let magnitude := (Binary64.shortest x.magnitude).text
      if x.isNegative then '-' :: magnitude else magnitude
    else ['n', 'u', 'l', 'l']

mutual
/-- A value without blanks. What is garbled has no text. -/
def Value.write : Value → List Char → List Char
  | .null, rest => 'n' :: 'u' :: 'l' :: 'l' :: rest
  | .bool true, rest => 't' :: 'r' :: 'u' :: 'e' :: rest
  | .bool false, rest => 'f' :: 'a' :: 'l' :: 's' :: 'e' :: rest
  | .number n, rest => n.text ++ rest
  | .string s, rest => writeString s rest
  | .array [], rest => '[' :: ']' :: rest
  | .array (v :: items), rest => '[' :: v.write (writeItems items (']' :: rest))
  | .object [], rest => '{' :: '}' :: rest
  | .object ((name, v) :: members), rest =>
    '{' :: writeString name (':' :: v.write (writeMembers members ('}' :: rest)))
  | .garbled, rest => rest

def writeItems : List Value → List Char → List Char
  | [], rest => rest
  | v :: items, rest => ',' :: v.write (writeItems items rest)

def writeMembers : List (String × Value) → List Char → List Char
  | [], rest => rest
  | (name, v) :: members, rest =>
    ',' :: writeString name (':' :: v.write (writeMembers members rest))
end

def Value.compact (v : Value) : String := String.ofList (v.write [])

/-- The start of a line at a level. -/
def newLine (level : Nat) (rest : List Char) : List Char :=
  '\n' :: (List.replicate (2 * level) ' ' ++ rest)

mutual
/-- A value with one item or member a line, standing at a level of its own. -/
def Value.writePretty (level : Nat) : Value → List Char → List Char
  | .array (v :: items), rest =>
    '[' :: newLine (level + 1) (v.writePretty (level + 1)
      (prettyItems (level + 1) items (newLine level (']' :: rest))))
  | .object ((name, v) :: members), rest =>
    '{' :: newLine (level + 1) (writeString name (':' :: ' ' :: v.writePretty (level + 1)
      (prettyMembers (level + 1) members (newLine level ('}' :: rest)))))
  | .array [], rest => '[' :: ']' :: rest
  | .object [], rest => '{' :: '}' :: rest
  | v, rest => v.write rest

def prettyItems (level : Nat) : List Value → List Char → List Char
  | [], rest => rest
  | v :: items, rest => ',' :: newLine level (v.writePretty level (prettyItems level items rest))

def prettyMembers (level : Nat) : List (String × Value) → List Char → List Char
  | [], rest => rest
  | (name, v) :: members, rest =>
    ',' :: newLine level (writeString name (':' :: ' ' :: v.writePretty level
      (prettyMembers level members rest)))
end

def Value.pretty (v : Value) : String := String.ofList (v.writePretty 0 [])

end TreeQuery.Json
