import RecordQuery.Shape.Shaped

/-!
# Records

A record as the remote store answers it, its values under remote field names. The store
leaves empty fields out, so a missing name is the normal way to have no value.
-/

namespace RecordQuery

/-- A record of the remote store. -/
structure Record where
  id : String
  /-- The values by remote field name. -/
  values : NameMap Json
  createdTime : Option String

namespace Record

/-- A record without values and without a time. -/
def new (id : String) : Record := ⟨id, .empty, none⟩

/-- Puts a value under a remote field name. -/
def insert (record : Record) (remoteName : String) (value : Json) : Record :=
  { record with values := record.values.insert remoteName value }

/-- A record with values and without a time, from a list: first places, last values. -/
def ofList (id : String) (values : List (String × Json)) : Record :=
  values.foldl (fun record entry => record.insert entry.1 entry.2) (.new id)

/-- The value under a remote field name. -/
def get? (record : Record) (remoteName : String) : Option Json := record.values.get? remoteName

/-- A record in JSON. The values may be absent, and there are none then. -/
def shape : Shape :=
  .record "RawRecord" <|
    .cons "id" .required .text <|
    .cons "fields" .defaulted .object <|
    .cons "createdTime" .optional .text .nil

instance : Shaped Record where
  shape := shape
  toValue record := (record.id, record.values, record.createdTime, ())
  ofValue := fun (id, values, createdTime, ()) => ⟨id, values, createdTime⟩
  ofValue_toValue _ := rfl

end Record

end RecordQuery
