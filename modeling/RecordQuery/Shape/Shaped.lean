import RecordQuery.Shape.Decode
import RecordQuery.Shape.Reader

/-!
# Structures of a Shape

A structure is `Shaped` when a shape describes it: its values correspond one to one to what
the shape describes. It is then read and written as its shape is.
-/

namespace RecordQuery

/-- A structure that is described by a shape. -/
class Shaped (α : Type) where
  /-- The shape. -/
  shape : Shape
  /-- What the shape describes for a value of the structure. -/
  toValue : α → shape.Value
  /-- The value of the structure for what the shape describes. -/
  ofValue : shape.Value → α
  /-- No value is lost on the way to the shape. -/
  ofValue_toValue : ∀ x, ofValue (toValue x) = x

namespace Shaped

variable {α : Type} [Shaped α]

/-- Reads a structure from a JSON value. -/
def decode (value : Json) : Except DecodeError α := ofValue <$> (shape α).decode value

/-- The JSON value of a structure. -/
def encode (x : α) : Json := (shape α).encode (toValue x)

/-- Reads a structure from JSON text. -/
def ofText (text : String) : Except TextFault α := ofValue <$> (shape α).ofText text

/-- No list of values is lost on the way to the shape. -/
theorem map_ofValue_toValue (xs : List α) :
    (xs.map toValue).map (ofValue : (shape α).Value → α) = xs := by
  induction xs with
  | nil => rfl
  | cons x xs ih => rw [List.map_cons, List.map_cons, ofValue_toValue, ih]

end Shaped

end RecordQuery
