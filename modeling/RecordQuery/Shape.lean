import RecordQuery.Direction
import RecordQuery.Json

/-!
# Shapes

A shape says what a structure looks like as a JSON value: a text, an unsigned integer of so
many bits, a list, a record with named members. Shapes are data, so reading and writing are
defined once for all structures: `Shape.decode`, `Shape.encode` and the reader of JSON text
all follow the shape.

`Shape.Value` is the type of what a shape describes. A record is described by its members
in order, and a member that may be absent holds an option.
-/

namespace RecordQuery

-- Powers of natural numbers are the core ones, whatever else is imported.
attribute [local instance (high)] instPowNat

/-- Natural numbers below `2 ^ bits`. -/
abbrev Unsigned (bits : Nat) : Type := Fin (2 ^ bits)

/-- An integer as a natural number below `2 ^ bits`, if it is one. -/
def Unsigned.ofInt? (bits : Nat) (value : Int) : Option (Unsigned bits) :=
  if h : 0 ≤ value ∧ value.toNat < 2 ^ bits then some ⟨value.toNat, h.2⟩ else none

/-- How a member may be absent. -/
inductive Presence where
  /-- It must be there. -/
  | required
  /-- It may be absent or `null`, and is left out then. -/
  | optional
  /-- It may be `null`, and is written so. It may be absent from an object only. -/
  | nullable
  /-- It may be absent and is empty then, but it may not be `null`, and it is always
  written. -/
  | defaulted
  deriving DecidableEq

/-- What a member holds. -/
abbrev Presence.Slot : Presence → Type → Type
  | .required, α => α
  | .optional, α => Option α
  | .nullable, α => Option α
  | .defaulted, α => α

/-- What a member holds that an object does not have, if anything. -/
def Presence.absent? {α : Type} (empty : α) : (presence : Presence) → Option (presence.Slot α)
  | .required => none
  | .optional => some none
  | .nullable => some none
  | .defaulted => some empty

/-- What a member holds that an array is too short for, if anything. -/
def Presence.atEnd? {α : Type} (empty : α) : (presence : Presence) → Option (presence.Slot α)
  | .required => none
  | .optional => some none
  | .nullable => none
  | .defaulted => some empty

/-- What a member holds when there is nothing to describe. -/
def Presence.empty {α : Type} (empty : α) : (presence : Presence) → presence.Slot α
  | .required => empty
  | .optional => none
  | .nullable => none
  | .defaulted => empty

mutual

/-- What a structure looks like. -/
inductive Shape where
  /-- A text. -/
  | text
  /-- A natural number below `2 ^ bits`. -/
  | unsigned (bits : Nat)
  /-- Any number, taken as a 64-bit float. -/
  | number
  /-- A direction, given by its word. -/
  | direction
  /-- Any JSON object. -/
  | object
  /-- A list of things of one shape. -/
  | list (item : Shape)
  /-- A record of a name with named members. -/
  | record (name : String) (members : Members)

/-- The members of a record in order. -/
inductive Members where
  | nil
  | cons (key : String) (presence : Presence) (shape : Shape) (rest : Members)

end

/-- The number of members. -/
def Members.count : Members → Nat
  | .nil => 0
  | .cons _ _ _ rest => rest.count + 1

/-- The keys of members in order. -/
def Members.keys : Members → List String
  | .nil => []
  | .cons key _ _ rest => key :: rest.keys

mutual

/-- What a shape describes. -/
@[reducible] def Shape.Value : Shape → Type
  | .text => String
  | .unsigned bits => Unsigned bits
  | .number => Binary64
  | .direction => Direction
  | .object => NameMap Json
  | .list item => List item.Value
  | .record _ members => members.Values

/-- What members describe together. -/
@[reducible] def Members.Values : Members → Type
  | .nil => Unit
  | .cons _ presence shape rest => presence.Slot shape.Value × rest.Values

end

mutual

/-- What a shape describes when there is nothing to describe. -/
def Shape.empty : (shape : Shape) → shape.Value
  | .text => ""
  | .unsigned bits => (⟨0, Nat.pow_pos (by decide)⟩ : Unsigned bits)
  | .number => Binary.zero false
  | .direction => Direction.asc
  | .object => NameMap.empty
  | .list _ => []
  | .record _ members => members.empty

/-- Members when there is nothing to describe. -/
def Members.empty : (members : Members) → members.Values
  | .nil => ()
  | .cons _ presence shape rest => (presence.empty shape.empty, rest.empty)

end

/-- Members of which only some are known yet. -/
@[reducible] def Members.Partial : Members → Type
  | .nil => Unit
  | .cons _ presence shape rest => Option (presence.Slot shape.Value) × rest.Partial

/-- Members of which none is known yet. -/
def Members.blank : (members : Members) → members.Partial
  | .nil => ()
  | .cons _ _ _ rest => (none, rest.blank)

/-- What is expected where a shape is read. -/
def Shape.expectation : Shape → String
  | .text => "a string"
  | .unsigned bits => "u" ++ toString bits
  | .number => "f64"
  | .direction => "string or map"
  | .object => "a map"
  | .list _ => "a sequence"
  | .record name _ => "struct " ++ name

/-! ### Writing -/

/-- Writes a member under its key, or leaves it out. -/
def Presence.write {α : Type} (presence : Presence) (key : String) (encode : α → Json)
    (slot : presence.Slot α) : List (String × Json) :=
  match presence, slot with
  | .required, value => [(key, encode value)]
  | .optional, some value => [(key, encode value)]
  | .optional, none => []
  | .nullable, some value => [(key, encode value)]
  | .nullable, none => [(key, .null)]
  | .defaulted, value => [(key, encode value)]

/-- An optional member is written when it is there. -/
theorem Presence.write_optional {α : Type} (key : String) (encode : α → Json)
    (slot : Option α) :
    Presence.optional.write key encode slot =
      (slot.map fun value => (key, encode value)).toList := by
  cases slot <;> rfl

mutual

/-- The JSON value of what a shape describes. -/
def Shape.encode : (shape : Shape) → shape.Value → Json
  | .text, (value : String) => .string value
  | .unsigned _, value => .integer (Fin.val value)
  | .number, (value : Binary64) => .float value
  | .direction, (value : Direction) => .string value.name
  | .object, (value : NameMap Json) => .ofMap value
  | .list item, (values : List item.Value) => .array (values.map item.encode)
  | .record _ members, values => .object (members.encode values)

/-- The members as they are written, in order. -/
def Members.encode : (members : Members) → members.Values → List (String × Json)
  | .nil, _ => []
  | .cons key presence shape rest, (slot, values) =>
    presence.write key shape.encode slot ++ rest.encode values

end

end RecordQuery
