import RecordQuery.Text.Quoted

/-!
# Fields

A field of the remote store has a type and a remote name. Two fields made apart are two
fields, even when both agree, so a field carries the stamp of its making and equality looks
at the stamp alone.
-/

namespace RecordQuery

/-- What the values of a field are. -/
inductive FieldType where
  | text
  | number
  | boolean
  | attachment
  | multipleAttachments
  deriving DecidableEq

/-- The word for a type in outlines. -/
def FieldType.outline : FieldType → String
  | .text => "Text"
  | .number => "Number"
  | .boolean => "Boolean"
  | .attachment => "Attachment"
  | .multipleAttachments => "MultipleAttachments"

/-- A field of the remote store. -/
structure Field where
  /-- What tells this field from every other one. -/
  stamp : Nat
  /-- What its values are. -/
  type : FieldType
  /-- Its name in the remote store. -/
  remoteName : String
  deriving DecidableEq

namespace Field

/-- Whether two fields go back to one making. -/
def same (a b : Field) : Bool := a.stamp == b.stamp

/-- A field as it is shown to a reader. -/
def outline (field : Field) : String :=
  "Field \x7b ty: " ++ field.type.outline ++ ", remote_name: " ++
    Text.quoted field.remoteName ++ " \x7d"

/-- The number of different makings among fields. -/
def countDistinct (fields : List Field) : Nat := (fields.map Field.stamp).eraseDups.length

end Field

end RecordQuery
