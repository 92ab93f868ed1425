import RecordQuery.Json.Text
import RecordQuery.Shape
import RecordQuery.Text.Quoted

/-!
# Reading Shapes from JSON Values

`Shape.decode` reads what a shape describes from a JSON value, or says why it cannot.

A record is read from an object or from an array. From an object the members are read in
the order of the object, unknown ones are skipped, and only then are members looked for that
were not there, in the order of the record. From an array the members are read by position.
-/

namespace RecordQuery

/-- Why a JSON value does not have a shape. -/
inductive DecodeError where
  /-- A record lacks a member. -/
  | missingMember (key : String)
  /-- A value is of another kind than expected. -/
  | invalidType (found : Json) (expected : String)
  /-- An integer is out of range. -/
  | outOfRange (found : Int) (expected : String)
  /-- An object that stands for a word has no or several members. -/
  | notSingleMember
  /-- A direction is given by another word. -/
  | unknownDirection (word : String)
  /-- A record is read from an array of too few items. -/
  | tooFewItems (found : Nat) (record : String) (expected : Nat)
  /-- A record is read from an array of too many items. -/
  | tooManyItems (found : Nat)

/-- A value as it is named in messages. -/
def Json.found : Json → String
  | .null => "null"
  | .boolean value => "boolean `" ++ (if value then "true" else "false") ++ "`"
  | .integer value => "integer `" ++ toString value ++ "`"
  | .float value => "floating point `" ++ Json.floats.render value ++ "`"
  | .string text => "string " ++ Text.quoted text
  | .array _ => "sequence"
  | .object _ => "map"

/-- What is said about a value that does not have a shape. -/
def DecodeError.message : DecodeError → String
  | .missingMember key => "missing field `" ++ key ++ "`"
  | .invalidType found expected => "invalid type: " ++ found.found ++ ", expected " ++ expected
  | .outOfRange found expected =>
    "invalid value: integer `" ++ toString found ++ "`, expected " ++ expected
  | .notSingleMember => "invalid value: map, expected map with a single key"
  | .unknownDirection word =>
    "unknown variant `" ++ word ++ "`, expected `asc` or `desc`"
  | .tooFewItems found record expected =>
    "invalid length " ++ toString found ++ ", expected struct " ++ record ++ " with " ++
      toString expected ++ (if expected = 1 then " element" else " elements")
  | .tooManyItems found =>
    "invalid length " ++ toString found ++ ", expected fewer elements in array"

namespace Json

/-- Reads a text. -/
def asText : Json → Except DecodeError String
  | .string text => .ok text
  | other => .error (.invalidType other Shape.text.expectation)

/-- Reads a natural number below `2 ^ bits`. Floats are none, whatever their value. -/
def asUnsigned (bits : Nat) : Json → Except DecodeError (Unsigned bits)
  | .integer value =>
    match Unsigned.ofInt? bits value with
    | some found => .ok found
    | none => .error (.outOfRange value (Shape.unsigned bits).expectation)
  | other => .error (.invalidType other (Shape.unsigned bits).expectation)

/-- Reads any number, an integer as the float nearest to it. -/
def asNumber : Json → Except DecodeError Binary64
  | .integer value => .ok (.ofInt value)
  | .float value => .ok value
  | other => .error (.invalidType other Shape.number.expectation)

/-- The direction of a word. -/
def directionOf (word : String) : Except DecodeError Direction :=
  match Direction.ofName? word with
  | some direction => .ok direction
  | none => .error (.unknownDirection word)

/-- Reads a direction: its word, or an object with the word as its only name and `null`. -/
def asDirection : Json → Except DecodeError Direction
  | .string word => directionOf word
  | .object [(word, content)] => do
    let direction ← directionOf word
    match content with
    | .null => .ok direction
    | other => .error (.invalidType other "unit")
  | .object _ => .error .notSingleMember
  | other => .error (.invalidType other Shape.direction.expectation)

/-- Reads any object. -/
def asObject : Json → Except DecodeError (NameMap Json)
  | .object members => .ok (.ofList members)
  | other => .error (.invalidType other Shape.object.expectation)

end Json

namespace Presence

variable {α : Type}

/-- Reads what stands for a member. -/
def read (presence : Presence) (decode : Json → Except DecodeError α) (value : Json) :
    Except DecodeError (presence.Slot α) :=
  match presence with
  | .required => decode value
  | .optional => if value.isNull then .ok none else some <$> decode value
  | .nullable => if value.isNull then .ok none else some <$> decode value
  | .defaulted => decode value

end Presence

/-- Looks for the members that are not known yet, in order. -/
def Members.close : (members : Members) → members.Partial → Except DecodeError members.Values
  | .nil, _ => .ok ()
  | .cons key presence shape rest, (slot, others) => do
    let value ←
      match slot.orElse fun _ => presence.absent? shape.empty with
      | some value => .ok value
      | none => .error (.missingMember key)
    let values ← rest.close others
    return (value, values)

mutual

/-- Reads what a shape describes. -/
def Shape.decode : (shape : Shape) → Json → Except DecodeError shape.Value
  | .text, value => value.asText
  | .unsigned bits, value => value.asUnsigned bits
  | .number, value => value.asNumber
  | .direction, value => value.asDirection
  | .object, value => value.asObject
  | .list item, value =>
    match value with
    | .array items => items.mapM item.decode
    | other => .error (.invalidType other (Shape.list item).expectation)
  | .record name members, value =>
    match value with
    | .object entries => do
      let filled ← entries.foldlM (fun known entry => members.fill entry.1 entry.2 known)
        members.blank
      members.close filled
    | .array items => members.decodeItems name members.count items.length 0 items
    | other => .error (.invalidType other (Shape.record name members).expectation)

/-- Reads the member of a name, if there is one of that name. -/
def Members.fill :
    (members : Members) → String → Json → members.Partial → Except DecodeError members.Partial
  | .nil, _, _, _ => .ok ()
  | .cons key presence shape rest, name, value, (slot, others) =>
    if name = key then do
      let value ← presence.read shape.decode value
      return (some value, others)
    else do
      let others ← rest.fill name value others
      return (slot, others)

/-- Reads members by position: `length` items in all, of which `position` are read. -/
def Members.decodeItems (record : String) (count length : Nat) :
    (members : Members) → Nat → List Json → Except DecodeError members.Values
  | .nil, _, [] => .ok ()
  | .nil, _, _ :: _ => .error (.tooManyItems length)
  | .cons _ presence shape rest, position, item :: items => do
    let value ← presence.read shape.decode item
    let values ← rest.decodeItems record count length (position + 1) items
    return (value, values)
  | .cons _ presence shape rest, position, [] => do
    let value ←
      match presence.atEnd? shape.empty with
      | some value => .ok value
      | none => .error (.tooFewItems position record count)
    let values ← rest.decodeItems record count length (position + 1) []
    return (value, values)

end

end RecordQuery
