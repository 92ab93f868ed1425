import RecordQuery.Error
import RecordQuery.Projection

/-!
# Tables and Schemas

A table of the remote store has a remote name and declares fields under logical names. A
schema is a set of tables by remote name.

`Table.project` chooses declared fields by name, all of them or none: the first name that
is not declared makes a statement that cannot be sent.
-/

namespace RecordQuery

/-- A table of the remote store. -/
structure Table where
  /-- Its name in the remote store. -/
  remoteName : String
  /-- The declared fields by logical name. -/
  fields : NameMap Field

namespace Table

/-- The table of a list of named fields. -/
def ofList (remoteName : String) (fields : List (String × Field)) : Table :=
  ⟨remoteName, .ofList fields⟩

/-- The field that is declared under a logical name. -/
def field? (table : Table) (name : String) : Option Field := table.fields.get? name

/-- All declared fields. -/
def projection (table : Table) : Projection := ⟨table.fields⟩

/-- The error about a name that a table does not declare. -/
def unknownField (table : Table) (name : String) : Error :=
  .invalidStatement ("unknown field `" ++ name ++ "` in table `" ++ table.remoteName ++ "`")

/-- Adds the declared fields of the given names to a projection. -/
def projectFrom (table : Table) : Projection → List String → Except Error Projection
  | chosen, [] => .ok chosen
  | chosen, name :: rest =>
    match table.field? name with
    | some field => table.projectFrom (chosen.insert name field) rest
    | none => .error (table.unknownField name)

/-- The declared fields of the given names. -/
def project (table : Table) (names : List String) : Except Error Projection :=
  table.projectFrom (.ofList []) names

end Table

/-- Tables by remote name. -/
structure Schema where
  /-- The tables, each under its own remote name. -/
  tables : NameMap Table

namespace Schema

/-- The schema of a list of tables. -/
def ofList (tables : List Table) : Schema :=
  ⟨.ofList (tables.map fun table => (table.remoteName, table))⟩

/-- The number of tables. -/
def size (schema : Schema) : Nat := schema.tables.size

/-- The table of a remote name. -/
def table? (schema : Schema) (remoteName : String) : Option Table :=
  schema.tables.get? remoteName

end Schema

end RecordQuery
