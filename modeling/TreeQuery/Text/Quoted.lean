import TreeQuery.Text.Printable
import TreeQuery.Text.Separated

/-!
# Quoted text

The form in which messages show names: between double quotes, with every character that would not
show as itself written as an escape.
-/

namespace TreeQuery.Text

/-- The digits of a number in base sixteen, in lower case and without leading zeros. -/
def hex (n : Nat) : String :=
  String.ofList (Nat.toDigits 16 n)

/-- One character of a quoted text. -/
def quotedChar (c : Char) : String :=
  if c = '"' then "\\\""
  else if c = '\\' then "\\\\"
  else if c = '\n' then "\\n"
  else if c = '\r' then "\\r"
  else if c = '\t' then "\\t"
  else if c = '\x00' then "\\0"
  else if isPrintable c then c.toString
  else "\\u\x7b" ++ hex c.toNat ++ "\x7d"

/-- A text between double quotes. -/
def quoted (s : String) : String :=
  "\"" ++ String.join (s.toList.map quotedChar) ++ "\""

/-- A list of quoted texts between brackets. -/
def quotedList (items : List String) : String :=
  "[" ++ separated ", " (items.map quoted) ++ "]"

end TreeQuery.Text
