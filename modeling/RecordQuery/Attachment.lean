import RecordQuery.Error
import RecordQuery.Shape.Shaped

/-!
# Attachments

A file that is attached to a record, with previews of it where the store has made some.
-/

namespace RecordQuery

/-- A preview of an attached image. -/
structure Thumbnail where
  url : String
  width : Unsigned 32
  height : Unsigned 32
  deriving DecidableEq

namespace Thumbnail

/-- A preview in JSON. -/
def shape : Shape :=
  .record "Thumbnail" <|
    .cons "url" .required .text <|
    .cons "width" .required (.unsigned 32) <|
    .cons "height" .required (.unsigned 32) .nil

instance : Shaped Thumbnail where
  shape := shape
  toValue t := (t.url, t.width, t.height, ())
  ofValue := fun (url, width, height, ()) => ⟨url, width, height⟩
  ofValue_toValue _ := rfl

end Thumbnail

/-- The previews of an attached image. -/
structure Thumbnails where
  small : Option Thumbnail
  large : Option Thumbnail
  full : Option Thumbnail
  deriving DecidableEq

namespace Thumbnails

/-- Previews in JSON. -/
def shape : Shape :=
  .record "Thumbnails" <|
    .cons "small" .optional Thumbnail.shape <|
    .cons "large" .optional Thumbnail.shape <|
    .cons "full" .optional Thumbnail.shape .nil

instance : Shaped Thumbnails where
  shape := shape
  toValue t :=
    (t.small.map Shaped.toValue, t.large.map Shaped.toValue, t.full.map Shaped.toValue, ())
  ofValue := fun (small, large, full, ()) =>
    ⟨Option.map (Shaped.ofValue (α := Thumbnail)) small,
      Option.map (Shaped.ofValue (α := Thumbnail)) large,
      Option.map (Shaped.ofValue (α := Thumbnail)) full⟩
  ofValue_toValue t := by
    obtain ⟨_ | _, _ | _, _ | _⟩ := t <;> rfl

end Thumbnails

/-- A file that is attached to a record. -/
structure Attachment where
  id : String
  url : String
  filename : String
  /-- The size in bytes. -/
  size : Unsigned 64
  mimeType : String
  width : Option (Unsigned 32)
  height : Option (Unsigned 32)
  thumbnails : Option Thumbnails
  deriving DecidableEq

namespace Attachment

/-- An attachment in JSON. -/
def shape : Shape :=
  .record "Attachment" <|
    .cons "id" .required .text <|
    .cons "url" .required .text <|
    .cons "filename" .required .text <|
    .cons "size" .required (.unsigned 64) <|
    .cons "type" .required .text <|
    .cons "width" .optional (.unsigned 32) <|
    .cons "height" .optional (.unsigned 32) <|
    .cons "thumbnails" .optional Thumbnails.shape .nil

instance : Shaped Attachment where
  shape := shape
  toValue a :=
    (a.id, a.url, a.filename, a.size, a.mimeType, a.width, a.height,
      a.thumbnails.map Shaped.toValue, ())
  ofValue := fun (id, url, filename, size, mimeType, width, height, thumbnails, ()) =>
    ⟨id, url, filename, size, mimeType, width, height,
      Option.map (Shaped.ofValue (α := Thumbnails)) thumbnails⟩
  ofValue_toValue a := by
    obtain ⟨id, url, filename, size, mimeType, width, height, thumbnails⟩ := a
    cases thumbnails with
    | none => rfl
    | some t =>
      exact congrArg
        (fun t => Attachment.mk id url filename size mimeType width height (some t))
        (Shaped.ofValue_toValue t)

/-- Reads an attachment from a value. Whatever is wrong with it, the value as a whole is no
attachment. -/
def ofJson (value : Json) : Except Error Attachment :=
  match Shaped.decode value with
  | .ok attachment => .ok attachment
  | .error _ => .error (.typeConversion value "Attachment")

end Attachment

end RecordQuery
