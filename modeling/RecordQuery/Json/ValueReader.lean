import RecordQuery.Json.NumberReader

/-!
# Reading Values

`Reader.value` reads any JSON value. Arrays and objects may be nested only so deep; `room`
is the number of nestings that are still allowed. Of several members of one name the last
counts, in the place of the first.

`Reader.skip` passes over a value that nobody wants, at any depth, and
`Reader.wrongKind` over the start of a value of an unwanted kind, whose own faults come
first.
-/

namespace RecordQuery.Reader

/-- How deep arrays and objects may be nested. -/
def maxNesting : Nat := 127

/-- Reads a value. The reader of values nested in it is missing where no more nesting is
allowed. -/
def valueAround (nested : Option (Reader Json)) : Reader Json := do
  let c ← peekPastBlanks
  if c = 'n' then word "null".toList *> return .null
  else if c = 't' then word "true".toList *> return .boolean true
  else if c = 'f' then word "false".toList *> return .boolean false
  else if c = '-' then advance *> number true
  else if c.isDigit then number false
  else if c = '"' then advance *> Json.string <$> stringBody true
  else if c = '[' then
    match nested with
    | none => throw .malformed
    | some item => advance *> Json.array <$> items item
  else if c = '\x7b' then
    match nested with
    | none => throw .malformed
    | some item =>
      advance
      let found ← members true
        (fun name known => do
          colon
          return NameMap.insert known name (← item))
        NameMap.empty
      return .ofMap found
  else throw .malformed

/-- Reads a value with at most `room` nestings. -/
def value : Nat → Reader Json
  | 0 => valueAround none
  | room + 1 => valueAround (some (value room))

/-- Skips a value. Numbers and strings need only have the form. Every nesting and every item
leaves at least one character behind, so `fuel` is enough when it exceeds the length of the
text. -/
def skipFrom : Nat → Reader Unit
  | 0 => throw .malformed
  | fuel + 1 => do
    let c ← peekPastBlanks
    if c = 'n' then word "null".toList
    else if c = 't' then word "true".toList
    else if c = 'f' then word "false".toList
    else if c = '-' then advance *> skipNumber
    else if c.isDigit then skipNumber
    else if c = '"' then advance *> discard (stringBody false)
    else if c = '[' then advance *> discard (itemsFrom (skipFrom fuel) fuel true)
    else if c = '\x7b' then
      advance *> membersFrom false (fun _ _ => colon *> skipFrom fuel) fuel true ()
    else throw .malformed

/-- Skips a value. -/
def skip : Reader Unit := do
  skipFrom ((← get).length + 1)

/-- Ends the reading at a value of a kind that is not wanted. What is not nested is read
first, for the fault that it may have itself. -/
def wrongKind {α : Type} : Reader α := do
  let c ← peekPastBlanks
  if c = '[' ∨ c = '\x7b' then throw .wrongShape
  let _ ← valueAround none
  throw .wrongShape

end RecordQuery.Reader
