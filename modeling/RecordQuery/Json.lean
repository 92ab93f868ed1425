import RecordQuery.NameMap
import RecordQuery.Number.Binary

/-!
# JSON Values

The values of record fields. Integers and floats are different numbers, and the members of
an object keep their order, though equality does not look at it.

* `Json.same` — equality: numbers as numbers, members in any order;
* `Json.kind` — the six kinds of value that a reader tells apart.
-/

namespace RecordQuery

/-- A JSON value. -/
inductive Json where
  | null
  | boolean (value : Bool)
  | integer (value : Int)
  | float (value : Binary64)
  | string (text : String)
  | array (items : List Json)
  | object (members : List (String × Json))
  deriving Inhabited

namespace Json

/-- The kinds of value. -/
inductive Kind where
  | null
  | boolean
  | number
  | string
  | array
  | object
  deriving DecidableEq

/-- The word for a kind. -/
def Kind.name : Kind → String
  | .null => "null"
  | .boolean => "boolean"
  | .number => "number"
  | .string => "string"
  | .array => "array"
  | .object => "object"

/-- The kind of a value. Integers and floats are both numbers. -/
def kind : Json → Kind
  | .null => .null
  | .boolean _ => .boolean
  | .integer _ => .number
  | .float _ => .number
  | .string _ => .string
  | .array _ => .array
  | .object _ => .object

/-- Whether a value is `null`. -/
def isNull : Json → Bool
  | .null => true
  | _ => false

/-- The object with the members of a map. -/
def ofMap (members : NameMap Json) : Json := .object members.entries

/-- The object of a list of members: of several members of one name the last counts, in the
place of the first. -/
def ofMembers (members : List (String × Json)) : Json := ofMap (.ofList members)

mutual

/-- Equality of values. Integers never equal floats, floats are equal as numbers, and
objects are equal when they have the same names with equal values, in any order. -/
def same : Json → Json → Bool
  | .null, .null => true
  | .boolean a, .boolean b => a == b
  | .integer a, .integer b => a == b
  | .float a, .float b => a.same b
  | .string a, .string b => a == b
  | .array a, .array b => sameItems a b
  | .object a, .object b => a.length == b.length && sameMembers a b
  | _, _ => false

/-- Equality item by item. -/
def sameItems : List Json → List Json → Bool
  | [], [] => true
  | a :: as, b :: bs => same a b && sameItems as bs
  | _, _ => false

/-- Whether every member has an equal partner of its name. -/
def sameMembers : List (String × Json) → List (String × Json) → Bool
  | [], _ => true
  | (name, a) :: rest, others =>
    (match Entries.find? name others with
      | some b => same a b
      | none => false) && sameMembers rest others

end

end Json

end RecordQuery
