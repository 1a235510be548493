import TreeQuery.Json.Value

/-!
# Reading JSON

A reader takes the characters at hand and gives what it has read with the characters left. It
accepts the JSON grammar and nothing beyond it: no comments, no commas at the end, no zeros in
front of a number, no bare control characters in strings. A text that breaks off can be read up to
there, part by part.
-/

namespace TreeQuery.Json

def isBlank (c : Char) : Bool := c = ' ' || c = '\t' || c = '\n' || c = '\r'

def skipBlanks (cs : List Char) : List Char := cs.dropWhile isBlank

/-! ## Strings -/

/-- What stands for a part of a string: a character, or one 16-bit unit of one. -/
inductive Piece
  | char (c : Char)
  | unit (n : Nat)
  deriving DecidableEq

def hexValue? (c : Char) : Option Nat :=
  if '0' ≤ c ∧ c ≤ '9' then some (c.toNat - '0'.toNat)
  else if 'a' ≤ c ∧ c ≤ 'f' then some (c.toNat - 'a'.toNat + 10)
  else if 'A' ≤ c ∧ c ≤ 'F' then some (c.toNat - 'A'.toNat + 10)
  else none

/-- The 16-bit unit that four hexadecimal digits write. -/
def unitOf? (a b c d : Char) : Option Nat := do
  let a ← hexValue? a
  let b ← hexValue? b
  let c ← hexValue? c
  let d ← hexValue? d
  return ((a * 16 + b) * 16 + c) * 16 + d

/-- The character that an escape letter stands for. -/
def escaped? : Char → Option Char
  | '"' => some '"'
  | '\\' => some '\\'
  | '/' => some '/'
  | 'b' => some '\x08'
  | 'f' => some '\x0c'
  | 'n' => some '\n'
  | 'r' => some '\r'
  | 't' => some '\t'
  | _ => none

/-- The pieces up to the closing quote. -/
def readPieces : List Char → Option (List Piece × List Char)
  | [] => none
  | '"' :: rest => some ([], rest)
  | '\\' :: 'u' :: a :: b :: c :: d :: rest => do
    let n ← unitOf? a b c d
    let (pieces, rest) ← readPieces rest
    return (.unit n :: pieces, rest)
  | '\\' :: e :: rest => do
    let c ← escaped? e
    let (pieces, rest) ← readPieces rest
    return (.char c :: pieces, rest)
  | c :: rest =>
    if c.toNat < 32 then none
    else do
      let (pieces, rest) ← readPieces rest
      return (.char c :: pieces, rest)

def isHighUnit (n : Nat) : Bool := 0xD800 ≤ n && n < 0xDC00

def isLowUnit (n : Nat) : Bool := 0xDC00 ≤ n && n < 0xE000

/-- The characters of the pieces: a high unit and the low unit behind it make one character. -/
def joinPieces : List Piece → Option (List Char)
  | [] => some []
  | .char c :: rest => (joinPieces rest).map (c :: ·)
  | .unit high :: .unit low :: rest =>
    if isHighUnit high then
      if isLowUnit low then
        (joinPieces rest).map
          (Char.ofNat (0x10000 + (high - 0xD800) * 0x400 + (low - 0xDC00)) :: ·)
      else none
    else if isLowUnit high then none
    else (joinPieces (.unit low :: rest)).map (Char.ofNat high :: ·)
  | .unit n :: rest =>
    if isHighUnit n || isLowUnit n then none
    else (joinPieces rest).map (Char.ofNat n :: ·)

/-- A string whose opening quote has been read, unless its pieces are no characters. -/
def readString (cs : List Char) : Option (Option String × List Char) := do
  let (pieces, rest) ← readPieces cs
  return ((joinPieces pieces).map String.ofList, rest)

/-! ## Numbers -/

def natOfDigits (digits : List Char) : Nat :=
  digits.foldl (fun n c => 10 * n + (c.toNat - '0'.toNat)) 0

/-- The digits in front, at least one. -/
def readDigits (cs : List Char) : Option (List Char × List Char) :=
  match cs.span Char.isDigit with
  | ([], _) => none
  | (digits, rest) => some (digits, rest)

/-- The digits before the point: a zero stands alone. -/
def readWhole : List Char → Option (List Char × List Char)
  | '0' :: rest => some (['0'], rest)
  | cs => readDigits cs

/-- The digits behind a point, if there is one. -/
def readFraction : List Char → Option (Option (List Char) × List Char)
  | '.' :: rest => (readDigits rest).map fun (digits, rest) => (some digits, rest)
  | cs => some (none, cs)

def readPower : List Char → Option (Int × List Char)
  | '-' :: rest => (readDigits rest).map fun (digits, rest) => (-(natOfDigits digits : Int), rest)
  | '+' :: rest => (readDigits rest).map fun (digits, rest) => ((natOfDigits digits : Int), rest)
  | cs => (readDigits cs).map fun (digits, rest) => ((natOfDigits digits : Int), rest)

/-- The power of ten, if there is one. -/
def readExponent : List Char → Option (Option Int × List Char)
  | 'e' :: rest => (readPower rest).map fun (power, rest) => (some power, rest)
  | 'E' :: rest => (readPower rest).map fun (power, rest) => (some power, rest)
  | cs => some (none, cs)

/-- The number with a sign, digits before and behind the point, and a power of ten. -/
def Number.ofParts? (negative : Bool) (whole : List Char) (fraction : Option (List Char))
    (power : Option Int) : Option Number :=
  match fraction, power with
  | none, none =>
    let n := natOfDigits whole
    if negative then
      if n = 0 then some (.float (.ofMagnitude true 0)) else some (.integer (-(n : Int)))
    else some (.integer n)
  | _, _ =>
    let behind := fraction.getD []
    let exact : Decimal := ⟨natOfDigits (whole ++ behind), power.getD 0 - behind.length⟩
    (Binary64.ofDecimal? negative exact).map .float

def readMagnitude (negative : Bool) (cs : List Char) : Option (Option Number × List Char) := do
  let (whole, rest) ← readWhole cs
  let (fraction, rest) ← readFraction rest
  let (power, rest) ← readExponent rest
  return (Number.ofParts? negative whole fraction power, rest)

/-- A number, unless it is too large. -/
def readNumber : List Char → Option (Option Number × List Char)
  | '-' :: rest => readMagnitude true rest
  | cs => readMagnitude false cs

/-! ## Values -/

/-- The object with the given members, if their names are texts. -/
def Value.ofMembers (members : List (Option String × Value)) : Value :=
  match members.mapM fun (name, v) => name.map (·, v) with
  | some members => .object members
  | none => .garbled

mutual
/-- A value, with blanks before it. Every step into a part of the value takes one from the fuel
and at least one character from the text. -/
def readValue : Nat → List Char → Option (Value × List Char)
  | 0, _ => none
  | fuel + 1, cs =>
    match skipBlanks cs with
    | 'n' :: 'u' :: 'l' :: 'l' :: rest => some (.null, rest)
    | 't' :: 'r' :: 'u' :: 'e' :: rest => some (.bool true, rest)
    | 'f' :: 'a' :: 'l' :: 's' :: 'e' :: rest => some (.bool false, rest)
    | '"' :: rest => do
      let (s, rest) ← readString rest
      return (s.elim .garbled .string, rest)
    | '[' :: rest => do
      let (items, rest) := readItems fuel rest
      return (.array items, ← rest)
    | '{' :: rest => do
      let (members, rest) := readMembers fuel rest
      return (.ofMembers members, ← rest)
    | rest => do
      let (n, rest) ← readNumber rest
      return (n.elim .garbled .number, rest)

/-- The items of an array whose bracket has been read, as far as they can be read, with what stands
behind the closing bracket if there is one. -/
def readItems : Nat → List Char → List Value × Option (List Char)
  | 0, _ => ([], none)
  | fuel + 1, cs =>
    match skipBlanks cs with
    | ']' :: rest => ([], some rest)
    | cs => readMoreItems fuel cs

/-- The items from one on. -/
def readMoreItems : Nat → List Char → List Value × Option (List Char)
  | 0, _ => ([], none)
  | fuel + 1, cs =>
    match readValue fuel cs with
    | none => ([], none)
    | some (v, rest) =>
      match skipBlanks rest with
      | ',' :: rest =>
        let (items, rest) := readMoreItems fuel rest
        (v :: items, rest)
      | ']' :: rest => ([v], some rest)
      | _ => ([v], none)

/-- The members of an object whose brace has been read, as far as they can be read, with what stands
behind the closing brace if there is one. -/
def readMembers : Nat → List Char → List (Option String × Value) × Option (List Char)
  | 0, _ => ([], none)
  | fuel + 1, cs =>
    match skipBlanks cs with
    | '}' :: rest => ([], some rest)
    | cs => readMoreMembers fuel cs

/-- The members from one on. -/
def readMoreMembers : Nat → List Char → List (Option String × Value) × Option (List Char)
  | 0, _ => ([], none)
  | fuel + 1, cs =>
    match readMember fuel cs with
    | none => ([], none)
    | some (name, v, rest) =>
      match skipBlanks rest with
      | ',' :: rest =>
        let (members, rest) := readMoreMembers fuel rest
        ((name, v) :: members, rest)
      | '}' :: rest => ([(name, v)], some rest)
      | _ => ([(name, v)], none)

/-- One member, with its name and its value. -/
def readMember : Nat → List Char → Option (Option String × Value × List Char)
  | 0, _ => none
  | fuel + 1, cs =>
    match skipBlanks cs with
    | '"' :: rest => do
      let (name, rest) ← readString rest
      match skipBlanks rest with
      | ':' :: rest =>
        let (v, rest) ← readValue fuel rest
        return (name, v, rest)
      | _ => none
    | _ => none
end

/-- Enough fuel for any text of the given length. -/
def fuelFor (length : Nat) : Nat := 4 * length + 4

/-! ## Texts -/

/-- What is read of a text: its value, with whether the text is whole. Of an array or an object that
is not, the value has the parts up to the first place where the text is not JSON or a name is no
text. -/
structure Reading where
  value : Value
  isWhole : Bool

/-- The leading members whose names are texts. -/
def namedMembers : List (Option String × Value) → List (String × Value)
  | (some name, v) :: members => (name, v) :: namedMembers members
  | _ => []

/-- What is read of a text with nothing but blanks around its value. -/
def Reading.ofText? (text : String) : Option Reading :=
  let cs := text.toList
  let fuel := fuelFor cs.length
  let isEnd := fun rest : List Char => (skipBlanks rest).isEmpty
  match skipBlanks cs with
  | '{' :: rest =>
    let (members, rest) := readMembers fuel rest
    some ⟨.object (namedMembers members), rest.any isEnd && members.all (·.1.isSome)⟩
  | '[' :: rest =>
    let (items, rest) := readItems fuel rest
    some ⟨.array items, rest.any isEnd⟩
  | cs => do
    let (v, rest) ← readValue fuel cs
    if isEnd rest then some ⟨v, true⟩ else none

end TreeQuery.Json
