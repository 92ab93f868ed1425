import RecordQuery.Field
import RecordQuery.NameMap

/-!
# Projections

A projection chooses fields of the remote store and gives each a logical name. Rows are
decoded with a projection and hold its logical names in its order.
-/

namespace RecordQuery

/-- Fields under logical names, in order. -/
structure Projection where
  /-- The fields by logical name. -/
  fields : NameMap Field

namespace Projection

/-- The projection of a list of named fields: first places, last fields. -/
def ofList (fields : List (String × Field)) : Projection := ⟨.ofList fields⟩

/-- Puts a field under a logical name. -/
def insert (p : Projection) (name : String) (field : Field) : Projection :=
  ⟨p.fields.insert name field⟩

/-- The number of logical names. -/
def size (p : Projection) : Nat := p.fields.size

/-- Whether nothing is chosen. -/
def isEmpty (p : Projection) : Bool := p.fields.isEmpty

/-- The field under a logical name. -/
def get? (p : Projection) (name : String) : Option Field := p.fields.get? name

/-- Whether a logical name is chosen. -/
def contains (p : Projection) (name : String) : Bool := p.fields.contains name

/-- The remote names of the fields, in order. -/
def remoteNames (p : Projection) : List String := p.fields.items.map Field.remoteName

/-- Whether two projections choose the same fields under the same names, in any order. -/
def same (p q : Projection) : Bool := p.fields.sameBy Field.same q.fields

end Projection

end RecordQuery
