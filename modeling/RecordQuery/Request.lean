import RecordQuery.Field
import RecordQuery.Shape.Shaped

/-!
# Requests

What is sent to the remote store: the name of a table and options. An option that is not set
is left out of the request altogether; it is never sent as an empty or null placeholder.
-/

namespace RecordQuery

/-- A sort key of a query: a field and a direction. -/
structure SortKey where
  field : Field
  direction : Direction

/-- Whether two sort keys sort by the same field in the same direction. -/
def SortKey.same (a b : SortKey) : Bool := a.field.same b.field && a.direction == b.direction

/-- A sort key of a request: a remote field name and a direction. -/
structure SortSpec where
  field : String
  direction : Direction
  deriving DecidableEq

/-- The sort key as it is sent. -/
def SortKey.spec (key : SortKey) : SortSpec := ⟨key.field.remoteName, key.direction⟩

namespace SortSpec

/-- A sort key in JSON. -/
def shape : Shape :=
  .record "SortSpec" <|
    .cons "field" .required .text <|
    .cons "direction" .required .direction .nil

instance : Shaped SortSpec where
  shape := shape
  toValue spec := (spec.field, spec.direction, ())
  ofValue := fun (field, direction, ()) => ⟨field, direction⟩
  ofValue_toValue _ := rfl

end SortSpec

/-- The options of a request. -/
structure ListOptions where
  /-- The formula that records must satisfy. -/
  filter : Option String
  /-- The sort keys, the most significant first. -/
  sort : Option (List SortSpec)
  /-- The remote names of the fields to return. -/
  fields : Option (List String)
  /-- The view to read from. -/
  view : Option String
  deriving DecidableEq

namespace ListOptions

/-- Options in JSON. -/
def shape : Shape :=
  .record "ListOptions" <|
    .cons "filterByFormula" .optional .text <|
    .cons "sort" .optional (.list SortSpec.shape) <|
    .cons "fields" .optional (.list .text) <|
    .cons "view" .optional .text .nil

instance : Shaped ListOptions where
  shape := shape
  toValue options :=
    (options.filter, options.sort.map (List.map Shaped.toValue), options.fields,
      options.view, ())
  ofValue := fun (filter, sort, fields, view, ()) =>
    ⟨filter, Option.map (List.map (Shaped.ofValue (α := SortSpec))) sort, fields, view⟩
  ofValue_toValue options := by
    obtain ⟨filter, sort, fields, view⟩ := options
    cases sort with
    | none => rfl
    | some keys =>
      exact congrArg (fun keys => ListOptions.mk filter (some keys) fields view)
        (Shaped.map_ofValue_toValue keys)

end ListOptions

/-- A request for the records of a table. -/
structure Request where
  /-- The remote name of the table. -/
  table : String
  options : ListOptions
  deriving DecidableEq

end RecordQuery
