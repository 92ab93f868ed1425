import RecordQuery.Attachment
import RecordQuery.Projection
import RecordQuery.Record

/-!
# Rows

A row is a record seen through a projection: the id of the record and, for every logical
name, the value under the remote name of its field, or nothing where the record has none.
Values are passed on as they are.

* `Row.decode` — from a record to its row;
* `Row.text`, `Row.number`, `Row.boolean`, `Row.attachment`, `Row.attachments` — one value,
  read as something; nothing and `null` are read as nothing, and a value that is something
  else is an error that names the field;
* `Row.toObject`, `Row.members` — the whole row as one object, for reading it into a
  structure and for writing it.
-/

namespace RecordQuery

/-- A decoded record. -/
structure Row where
  id : String
  /-- The values by logical name. -/
  fields : NameMap (Option Json)

namespace Row

/-- The row of a list of entries: first places, last values. -/
def ofList (id : String) (fields : List (String × Option Json)) : Row := ⟨id, .ofList fields⟩

/-- The row of a record: one entry for every logical name of the projection. -/
def decode (record : Record) (projection : Projection) : Row :=
  ⟨record.id, projection.fields.map fun field => record.get? field.remoteName⟩

/-- Whether a logical name is in the row, with or without a value. -/
def contains (row : Row) (name : String) : Bool := row.fields.contains name

/-- The value under a logical name. -/
def get? (row : Row) (name : String) : Option Json := (row.fields.get? name).join

/-- Equality of values that may be absent. -/
def sameValue : Option Json → Option Json → Bool
  | none, none => true
  | some a, some b => a.same b
  | _, _ => false

/-- Whether two rows have the same id and the same values, in any order. -/
def same (a b : Row) : Bool := a.id == b.id && a.fields.sameBy sameValue b.fields

/-! ### Reading one value -/

/-- Reads the value under a name. Nothing and `null` are nothing, and an error is told with
the name of the field. -/
def read {α : Type} (row : Row) (name : String) (reader : Json → Except Error (Option α)) :
    Except Error (Option α) :=
  match (row.get? name).filter fun value => !value.isNull with
  | none => .ok none
  | some value => (reader value).mapError fun e => e.under (.remark ("field `" ++ name ++ "`"))

/-- Reads a text. -/
def text (row : Row) (name : String) : Except Error (Option String) :=
  row.read name fun
    | .string text => .ok (some text)
    | other => .error (.typeConversion other "String")

/-- Reads a number, an integer as the float nearest to it. -/
def number (row : Row) (name : String) : Except Error (Option Binary64) :=
  row.read name fun
    | .integer value => .ok (some (.ofInt value))
    | .float value => .ok (some value)
    | other => .error (.typeConversion other "f64")

/-- Reads a boolean. -/
def boolean (row : Row) (name : String) : Except Error (Option Bool) :=
  row.read name fun
    | .boolean value => .ok (some value)
    | other => .error (.typeConversion other "bool")

/-- Reads an attachment: an object, or an array of at most one item. -/
def attachment (row : Row) (name : String) : Except Error (Option Attachment) :=
  row.read name fun
    | .object members => some <$> Attachment.ofJson (.object members)
    | .array [] => .ok none
    | .array [item] => some <$> Attachment.ofJson item
    | other => .error (.typeConversion other "Attachment")

/-- Reads the attachments of an array. -/
def attachments (row : Row) (name : String) : Except Error (Option (List Attachment)) :=
  row.read name fun
    | .array items => some <$> items.mapM Attachment.ofJson
    | other => .error (.typeConversion other "Vec<Attachment>")

/-! ### The whole row -/

/-- The values that are there, by logical name. -/
def present (row : Row) : List (String × Json) :=
  row.fields.entries.filterMap fun entry => entry.2.map fun value => (entry.1, value)

/-- The id and the values that are there as one object. A value under the name `id` takes the
place of the id. -/
def toObject (row : Row) : Json := .ofMembers (("id", .string row.id) :: row.present)

/-- Reads the whole row as what a shape describes. -/
def deserialize (row : Row) (shape : Shape) : Except Error shape.Value :=
  (shape.decode row.toObject).mapError fun e => .external e.message

/-- The members of a written row: the id, and every logical name with its value or `null`. -/
def members (row : Row) : List (String × Json) :=
  ("id", .string row.id) :: row.fields.entries.map fun entry =>
    (entry.1, entry.2.getD .null)

/-- The written row as text. A logical name `id` is written besides the id. -/
def toText (row : Row) : String := (Json.object row.members).text

/-- The written row as a value. Of two members of one name the last counts. -/
def toJson (row : Row) : Json := .ofMembers row.members

end Row

end RecordQuery
