import RecordQuery.Json.ValueReader
import RecordQuery.Shape

/-!
# Reading Shapes from JSON Text

`Shape.read` reads what a shape describes straight from a text, piece by piece, so that the
first fault of the text decides, be it one of form or one of shape. A member that occurs
twice has the wrong shape, and so has a record that lacks one.
-/

namespace RecordQuery

open Reader

namespace Reader

/-- What a value that was found must be; anything else has the wrong shape. -/
def expect {α : Type} : Option α → Reader α
  | some value => return value
  | none => throw .wrongShape

/-- Reads a text. -/
def text : Reader String := do
  let c ← peekPastBlanks
  if c = '"' then advance *> stringBody true else wrongKind

/-- Reads a number of either sign. -/
def anyNumber : Reader Json := do
  let c ← peekPastBlanks
  if c = '-' then advance *> number true
  else if c.isDigit then number false
  else wrongKind

/-- Reads a natural number below `2 ^ bits`. -/
def unsigned (bits : Nat) : Reader (Unsigned bits) := do
  match ← anyNumber with
  | .integer value => expect (Unsigned.ofInt? bits value)
  | _ => throw .wrongShape

/-- Reads any number as a float. -/
def floating : Reader Binary64 := do
  match ← anyNumber with
  | .integer value => return .ofInt value
  | .float value => return value
  | _ => throw .wrongShape

/-- Reads `null`. -/
def nothing : Reader Unit := do
  let c ← peekPastBlanks
  if c = 'n' then word "null".toList else wrongKind

/-- Goes one nesting deeper, if there is room for it. -/
def nest {α : Type} (room : Nat) (reader : Nat → Reader α) : Reader α :=
  match room with
  | 0 => throw .malformed
  | room + 1 => advance *> reader room

/-- Reads a direction: its word, or an object with the word as its only name and `null`. -/
def direction (room : Nat) : Reader Direction := do
  let c ← peekPastBlanks
  if c = '"' then expect (Direction.ofName? (← text))
  else if c = '\x7b' then
    nest room fun _ => do
      let direction ← expect (Direction.ofName? (← text))
      colon
      nothing
      let c ← peekPastBlanks
      if c = '\x7d' then advance *> return direction else throw .malformed
  else throw .malformed

/-- Reads any object. -/
def object (room : Nat) : Reader (NameMap Json) := do
  let c ← peekPastBlanks
  if c = '\x7b' then
    nest room fun room =>
      members true
        (fun name known => do
          colon
          return known.insert name (← value room))
        NameMap.empty
  else wrongKind

/-- Reads what may be `null` instead. -/
def unlessNull {α : Type} (reader : Reader α) : Reader (Option α) := do
  match ← peekPastBlanks? with
  | some 'n' => word "null".toList *> return none
  | _ => some <$> reader

end Reader

namespace Presence

variable {α : Type}

/-- Reads what stands for a member. -/
def readText (presence : Presence) (reader : Reader α) : Reader (presence.Slot α) :=
  match presence with
  | .required => reader
  | .optional => unlessNull reader
  | .nullable => unlessNull reader
  | .defaulted => reader

end Presence

/-- Supplies the members that an object does not have. -/
def Members.close? : (members : Members) → members.Partial → Option members.Values
  | .nil, _ => some ()
  | .cons _ presence shape rest, (slot, others) => do
    let value ← slot.orElse fun _ => presence.absent? shape.empty
    let values ← rest.close? others
    return (value, values)

mutual

/-- Reads what a shape describes, with at most `room` nestings. -/
def Shape.read : (shape : Shape) → Nat → Reader shape.Value
  | .text, _ => Reader.text
  | .unsigned bits, _ => Reader.unsigned bits
  | .number, _ => Reader.floating
  | .direction, room => Reader.direction room
  | .object, room => Reader.object room
  | .list item, room => do
    let c ← peekPastBlanks
    if c = '[' then nest room fun room => items (item.read room) else wrongKind
  | .record _ members, room => do
    let c ← peekPastBlanks
    if c = '\x7b' then
      nest room fun room => do
        let found ← Reader.members true (fun name known => members.readMember room name known)
          members.blank
        expect (members.close? found)
    else if c = '[' then
      nest room fun room => members.readItems room true
    else wrongKind

/-- Reads the value of a name from its colon on. Unknown names are skipped. -/
def Members.readMember :
    (members : Members) → Nat → String → members.Partial → Reader members.Partial
  | .nil, _, _, _ => colon *> skip
  | .cons key presence shape rest, room, name, (slot, others) =>
    if name = key then
      match slot with
      | some _ => throw .wrongShape
      | none => do
        colon
        let value ← presence.readText (shape.read room)
        return (some value, others)
    else do
      let others ← rest.readMember room name others
      return (slot, others)

/-- Reads members by position, and the closing bracket after them. -/
def Members.readItems : (members : Members) → Nat → Bool → Reader members.Values
  | .nil, _, _ => closeArray
  | .cons _ presence shape rest, room, first => do
    let value ←
      if ← hasItem first then presence.readText (shape.read room)
      else expect (presence.atEnd? shape.empty)
    let values ← rest.readItems room false
    return (value, values)

end

/-- Reads what a shape describes from a whole text. -/
def Shape.ofText (shape : Shape) (text : String) : Except TextFault shape.Value :=
  Reader.run (shape.read maxNesting) text

end RecordQuery
