/-!
# Directions

The direction of a sort key, and its word in requests.
-/

namespace RecordQuery

/-- The direction in which records are sorted. -/
inductive Direction where
  | asc
  | desc
  deriving DecidableEq

namespace Direction

/-- The word for a direction. -/
def name : Direction → String
  | .asc => "asc"
  | .desc => "desc"

/-- The direction of a word. -/
def ofName? (name : String) : Option Direction :=
  if name = "asc" then some .asc else if name = "desc" then some .desc else none

/-- Every direction is the one of its word. -/
@[simp] theorem ofName?_name (direction : Direction) :
    ofName? direction.name = some direction := by
  cases direction <;> rfl

end Direction

end RecordQuery
