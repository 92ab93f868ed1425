import RecordQuery.Json

/-!
# Reading JSON Text

A reader consumes characters from the front of a text or ends with a fault, and the first
fault ends the reading. Here are the readers of the pieces: blanks, words, strings, and the
punctuation of arrays and objects. What stands between the punctuation is a parameter, so
one reader of arrays serves for values, for lists of a shape and for text that is skipped.

Strings are read strictly, which needs every surrogate escape to be one of a pair, or
loosely, where only the form of escapes counts.
-/

namespace RecordQuery

/-- What is wrong with a text. -/
inductive TextFault where
  /-- It is JSON as far as it was read, but of another shape than wanted. -/
  | wrongShape
  /-- It is not JSON. -/
  | malformed
  /-- It ends too early. -/
  | truncated
  deriving DecidableEq

/-- What consumes characters from the front of a text. -/
abbrev Reader := StateT (List Char) (Except TextFault)

namespace Reader

/-! ### Characters -/

/-- Whether a character may stand between the pieces of a text. -/
def isBlank (c : Char) : Bool := c = ' ' || c = '\n' || c = '\t' || c = '\r'

/-- The next character. -/
def peek? : Reader (Option Char) := return (← get).head?

/-- Leaves the next character behind. -/
def advance : Reader Unit := modify List.tail

/-- The next character after blanks. -/
def peekPastBlanks? : Reader (Option Char) := do
  modify (List.dropWhile isBlank)
  peek?

/-- The next character after blanks, in a text that must not end there. -/
def peekPastBlanks : Reader Char := do
  match ← peekPastBlanks? with
  | some c => return c
  | none => throw .truncated

/-- Reads the given characters. -/
def word : List Char → Reader Unit
  | [] => return
  | c :: rest => do
    match ← peek? with
    | none => throw .truncated
    | some d => if c = d then do advance; word rest else throw .malformed

/-! ### Strings -/

/-- The value of a hexadecimal digit. -/
def hexDigit? (c : Char) : Option Nat :=
  if '0' ≤ c ∧ c ≤ '9' then some (c.toNat - '0'.toNat)
  else if 'a' ≤ c ∧ c ≤ 'f' then some (c.toNat - 'a'.toNat + 10)
  else if 'A' ≤ c ∧ c ≤ 'F' then some (c.toNat - 'A'.toNat + 10)
  else none

/-- The value of hexadecimal digits. -/
def hexValue? (cs : List Char) : Option Nat :=
  cs.foldlM (fun acc c => (hexDigit? c).map (16 * acc + ·)) 0

/-- The four hexadecimal digits at the front of a text and what follows them. Digits are
looked for as soon as the text has four bytes left. -/
def hexFour (cs : List Char) : Except TextFault (Nat × List Char) :=
  if (cs.take 4).foldl (fun bytes c => bytes + c.utf8Size) 0 < 4 then .error .truncated
  else
    match hexValue? (cs.take 4) with
    | some value => .ok (value, cs.drop 4)
    | none => .error .malformed

/-- The character of a one-letter escape. -/
def escaped? : Char → Option Char
  | '"' => some '"'
  | '\\' => some '\\'
  | '/' => some '/'
  | 'b' => some '\x08'
  | 'f' => some '\x0c'
  | 'n' => some '\n'
  | 'r' => some '\r'
  | 't' => some '\t'
  | _ => none

/-- Whether a code unit is the first of a surrogate pair. -/
def isHighSurrogate (unit : Nat) : Bool := 0xd800 ≤ unit && unit ≤ 0xdbff

/-- Whether a code unit is the second of a surrogate pair. -/
def isLowSurrogate (unit : Nat) : Bool := 0xdc00 ≤ unit && unit ≤ 0xdfff

/-- The second half of a surrogate pair, at the front of a text, and what follows it. -/
def lowSurrogate : List Char → Except TextFault (Nat × List Char)
  | [] => .error .truncated
  | '\\' :: [] => .error .truncated
  | '\\' :: 'u' :: rest =>
    match hexFour rest with
    | .error fault => .error fault
    | .ok (unit, after) =>
      if isLowSurrogate unit then .ok (unit, after) else .error .malformed
  | _ => .error .malformed

/-- The character of a numeric escape whose mark is read already, and what follows it. Read
loosely, the halves of surrogate pairs stand for no character in particular. -/
def numericEscape (strict : Bool) (cs : List Char) : Except TextFault (Char × List Char) := do
  let (unit, rest) ← hexFour cs
  if strict && isLowSurrogate unit then throw .malformed
  else if strict && isHighSurrogate unit then
    let (low, rest) ← lowSurrogate rest
    return (Char.ofNat ((unit - 0xd800) * 0x400 + (low - 0xdc00) + 0x10000), rest)
  else return (Char.ofNat unit, rest)

/-- The characters of a string up to its closing quote, added in reverse to `acc`, and what
follows the quote. Every step leaves at least one character behind, so `fuel` is enough when
it is the length of the text. -/
def stringFrom (strict : Bool) :
    Nat → List Char → List Char → Except TextFault (List Char × List Char)
  | _, _, [] => .error .truncated
  | 0, _, _ => .error .malformed
  | _, acc, '"' :: rest => .ok (acc.reverse, rest)
  | _, _, '\\' :: [] => .error .truncated
  | fuel + 1, acc, '\\' :: 'u' :: rest => do
    let (c, rest) ← numericEscape strict rest
    stringFrom strict fuel (c :: acc) rest
  | fuel + 1, acc, '\\' :: letter :: rest =>
    match escaped? letter with
    | some c => stringFrom strict fuel (c :: acc) rest
    | none => .error .malformed
  | fuel + 1, acc, c :: rest =>
    if c.toNat < 0x20 then .error .malformed else stringFrom strict fuel (c :: acc) rest

/-- The rest of a string whose opening quote is read already. -/
def stringBody (strict : Bool) : Reader String := fun cs => do
  let (chars, rest) ← stringFrom strict cs.length [] cs
  return (String.ofList chars, rest)

/-! ### Arrays and objects -/

/-- Whether an array goes on with an item. The comma before the item is left behind, the
closing bracket is not. -/
def hasItem (first : Bool) : Reader Bool := do
  let c ← peekPastBlanks
  if c = ']' then return false
  else if first then return true
  else if c = ',' then
    advance
    let next ← peekPastBlanks
    if next = ']' then throw .malformed else return true
  else throw .malformed

/-- Reads the items of an array until its closing bracket. Every item leaves at least one
character behind. -/
def itemsFrom {α : Type} (item : Reader α) : Nat → Bool → Reader (List α)
  | 0, _ => throw .malformed
  | fuel + 1, first => do
    if ← hasItem first then
      let x ← item
      let xs ← itemsFrom item fuel false
      return x :: xs
    else
      advance
      return []

/-- Reads the items of an array whose opening bracket is read already. -/
def items {α : Type} (item : Reader α) : Reader (List α) := do
  itemsFrom item ((← get).length + 1) true

/-- Reads the closing bracket of an array of which no more items are wanted. -/
def closeArray : Reader Unit := do
  let c ← peekPastBlanks
  if c = ']' then advance else throw .malformed

/-- Whether an object goes on with a member. The comma before the member is left behind, the
closing brace and the opening quote of the name are not. -/
def hasMember (first : Bool) : Reader Bool := do
  let c ← peekPastBlanks
  if c = '\x7d' then return false
  else if first then
    if c = '"' then return true else throw .malformed
  else if c = ',' then
    advance
    let next ← peekPastBlanks
    if next = '"' then return true else throw .malformed
  else throw .malformed

/-- Reads the colon between a name and its value. -/
def colon : Reader Unit := do
  let c ← peekPastBlanks
  if c = ':' then advance else throw .malformed

/-- Reads the members of an object until its closing brace: `member` reads what follows a
name, the colon first, and takes it up into what the members before it have given. -/
def membersFrom {σ : Type} (strict : Bool) (member : String → σ → Reader σ) :
    Nat → Bool → σ → Reader σ
  | 0, _, _ => throw .malformed
  | fuel + 1, first, known => do
    if ← hasMember first then
      advance
      let name ← stringBody strict
      let known ← member name known
      membersFrom strict member fuel false known
    else
      advance
      return known

/-- Reads the members of an object whose opening brace is read already. -/
def members {σ : Type} (strict : Bool) (member : String → σ → Reader σ) (start : σ) :
    Reader σ := do
  membersFrom strict member ((← get).length + 1) true start

/-- Runs a reader on a whole text. Only blanks may be left over. -/
def run {α : Type} (reader : Reader α) (text : String) : Except TextFault α := do
  let (value, rest) ← StateT.run reader text.toList
  if (rest.dropWhile isBlank).isEmpty then return value else throw .malformed

end Reader

end RecordQuery
