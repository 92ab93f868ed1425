import RecordQuery.Session.Recipe

/-!
# Operations and Answers

What can be done in one step of a session, and what is answered. Operations name the
objects they work on; an answer holds the objects themselves.
-/

namespace RecordQuery

/-- The structures that can be read from JSON. -/
inductive Target where
  | record
  | listOptions
  | sortSpec
  | direction
  | attachment
  | thumbnails
  | thumbnail
  | user
  | strict
  | object
  deriving DecidableEq

/-- What a structure looks like in JSON. -/
def Target.shape : Target → Shape
  | .record => Record.shape
  | .listOptions => ListOptions.shape
  | .sortSpec => SortSpec.shape
  | .direction => .direction
  | .attachment => Attachment.shape
  | .thumbnails => Thumbnails.shape
  | .thumbnail => Thumbnail.shape
  | .user =>
    .record "User" <|
      .cons "id" .required .text <|
      .cons "name" .required .text <|
      .cons "age" .nullable .number .nil
  | .strict =>
    .record "Strict" <|
      .cons "id" .required .text <|
      .cons "age" .required .number .nil
  | .object => .object

/-- Reads a structure from a JSON value and writes it again. -/
def Target.normalize (target : Target) (value : Json) : Except DecodeError Json :=
  target.shape.encode <$> target.shape.decode value

/-- Reads a structure from JSON text and writes it again as a value. -/
def Target.normalizeText (target : Target) (text : String) : Except TextFault Json :=
  target.shape.encode <$> target.shape.ofText text

/-- How one value of a row is read. -/
inductive Accessor where
  | text
  | number
  | boolean
  | attachment
  | attachments
  deriving DecidableEq

/-- Reads one value of a row and writes what was read; nothing is written as `null`. -/
def Accessor.read (row : Row) (name : String) : Accessor → Except Error Json
  | .text => (fun found => found.elim .null .string) <$> row.text name
  | .number => (fun found => found.elim .null .float) <$> row.number name
  | .boolean => (fun found => found.elim .null .boolean) <$> row.boolean name
  | .attachment => (fun found => found.elim .null Shaped.encode) <$> row.attachment name
  | .attachments =>
    (fun found => found.elim .null fun items => .array (items.map Shaped.encode)) <$>
      row.attachments name

/-- Where the answer of a new record store comes from. -/
inductive ResponseSource where
  /-- Records in JSON. -/
  | decoded (records : List Json)
  /-- Records from lists of values. -/
  | listed (records : List (String × List (String × Json)))
  /-- The error under a name. -/
  | failing (error : Handle)

/-- Where a filter comes from. -/
inductive FilterSource where
  /-- A formula that is text already. -/
  | text (formula : String)
  /-- An expression. -/
  | expr (recipe : Recipe)

/-- Where an error comes from. -/
inductive ErrorSource where
  /-- A new report. -/
  | report (report : Report)
  /-- A failure of the record store that wraps the error under a name. -/
  | serviceOf (error : Handle)
  /-- Any other failure that wraps the error under a name. -/
  | externalOf (error : Handle)
  /-- The error under a name once more. -/
  | again (error : Handle)

/-- What is done in a step. -/
inductive Operation where
  /-- Makes a field, and shows its outline if asked. -/
  | newField (type : FieldType) (remoteName : String) (outlined : Bool)
  /-- Takes one more handle of a field. -/
  | copyField (field : Handle)
  /-- Compares two fields. -/
  | compareFields (a b : Handle)
  /-- Counts different fields. -/
  | countFields (fields : List Handle)
  /-- Makes a table of named fields. -/
  | newTable (remoteName : String) (fields : List (String × Handle))
  /-- Looks up a field of a table. -/
  | tableField (table : Handle) (name : String)
  /-- Chooses fields of a table by name. -/
  | projectTable (table : Handle) (names : List String)
  /-- Chooses all fields of a table. -/
  | wholeProjection (table : Handle)
  /-- Makes a schema of tables. -/
  | newSchema (tables : List Handle)
  /-- Looks up a table of a schema. -/
  | schemaTable (schema : Handle) (remoteName : String)
  /-- Makes a projection of named fields. -/
  | newProjection (fields : List (String × Handle))
  /-- Puts a field into a projection. -/
  | insertField (projection : Handle) (name : String) (field : Handle)
  /-- Looks up a field of a projection. -/
  | projectedField (projection : Handle) (name : String)
  /-- Compares two projections. -/
  | compareProjections (a b : Handle)
  /-- Makes a sort key. -/
  | newSort (field : Handle) (direction : Direction)
  /-- Compares two sort keys. -/
  | compareSorts (a b : Handle)
  /-- Makes an expression, and shows its outline if asked. -/
  | newExpr (recipe : Recipe) (outlined : Bool)
  /-- Writes an expression as formula text. -/
  | compile (recipe : Recipe)
  /-- Compares two expressions. -/
  | compareExprs (a b : Recipe)
  /-- Compares two formula texts. -/
  | compareFormulas (a b : String)
  /-- Makes a base with a new service that gives one answer. -/
  | newBase (source : ResponseSource) (labels : List String)
  /-- Takes one more handle of a base, with the same service. -/
  | copyBase (base : Handle)
  /-- Lists what the service of a base was asked so far. -/
  | received (base : Handle)
  /-- Starts a query on a table, of all its fields unless some are chosen. -/
  | newQuery (base table : Handle) (projection : Option Handle)
  /-- Sets the filter of a query. -/
  | filter (query : Handle) (source : FilterSource)
  /-- Adds sort keys to a query. -/
  | orderBy (query : Handle) (sorts : List Handle)
  /-- Sets the view of a query. -/
  | view (query : Handle) (name : String)
  /-- Takes the descriptor of a query. -/
  | build (query : Handle)
  /-- Compares two descriptors. -/
  | compareDescriptors (a b : Handle)
  /-- Runs a descriptor on a base. -/
  | execute (base descriptor : Handle)
  /-- Runs a query on its own base. -/
  | run (query : Handle)
  /-- Runs a query and reads each row as a structure. -/
  | runAs (query : Handle) (target : Target)
  /-- Runs a descriptor on a base and takes the error that its store answers with. -/
  | executeForError (base descriptor : Handle)
  /-- Runs a query on its own base and takes the error that its store answers with. -/
  | runForError (query : Handle)
  /-- Makes a row by hand. -/
  | newRow (id : String) (fields : List (String × Option Json))
  /-- Looks up a value of a row. -/
  | rowValue (row : Handle) (name : String)
  /-- Reads a value of a row as one kind of value. -/
  | readRow (row : Handle) (name : String) (accessor : Accessor)
  /-- Writes a row as JSON, as text and as a value. -/
  | writeRow (row : Handle)
  /-- Compares two rows. -/
  | compareRows (a b : Handle)
  /-- Reads a row as a structure. -/
  | deserializeRow (row : Handle) (target : Target)
  /-- Makes an error. -/
  | newError (source : ErrorSource)
  /-- Puts a newer error in front of an older one. -/
  | addContext (error context : Handle)
  /-- Shows the outline of an error. -/
  | outlineError (error : Handle)

/-- What is answered. -/
inductive Answer where
  | field (field : Field) (outline : Option String)
  | fields (a b : Field)
  | count (distinct : Nat)
  | table (table : Table)
  | foundField (field : Option Field)
  | projection (projection : Projection)
  | schema (schema : Schema)
  | foundTable (table : Option Table)
  | equal (same : Bool)
  | sort (key : SortKey)
  | expr (expr : Expr) (outline : Option String)
  | formula (text : String)
  | formulas (a b : String)
  | base (base : Base)
  | requests (requests : List Request)
  | query (query : Query)
  | settings (options : ListOptions)
  | descriptor (descriptor : Descriptor)
  | descriptors (a b : Descriptor)
  | rows (rows : List Row)
  | values (values : List Json)
  | row (row : Row)
  | rowValue (contained : Bool) (value : Option Json)
  | value (value : Json)
  | written (text : String) (value : Json)
  | error (error : Error)
  | outline (text : String)
  | projectedField (contained : Bool) (field : Option Field)

end RecordQuery
