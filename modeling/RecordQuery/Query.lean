import RecordQuery.Event
import RecordQuery.Request
import RecordQuery.Row
import RecordQuery.Table
import RecordQuery.Text.Blank

/-!
# Queries

A base is a way to one record store. A query is asked of a base and a table and configured
setting by setting: a projection, a filter, sort keys, a view. Building it gives a
*descriptor*, the request to be sent and the projection for decoding the answer, and an
`Execution` is what comes of running a descriptor on an answer of the store.

* `Query.filter`, `Query.view` — replace the setting; `Query.orderBy` — adds to it;
* `Query.set` — makes one of these settings, if its filter compiles;
* `Query.build` — leaves out what was never set; a field list is sent only for an explicit
  projection that chooses something;
* `execute` — the events of a run, and the rows or the error of the store.
-/

namespace RecordQuery

/-- A way to one record store. -/
structure Base where
  /-- Which of the stores it leads to. -/
  service : Nat
  /-- The name of the base in the log. -/
  label : Option String
  deriving DecidableEq

/-- The base of a store and the labels given to it, of which the last counts. It must not be
blank. -/
def Base.build (service : Nat) (labels : List String) : Except Error Base :=
  match labels.getLast? with
  | none => .ok ⟨service, none⟩
  | some label =>
    if Text.isBlank label then .error (.invalidStatement "base id must not be empty")
    else .ok ⟨service, some label⟩

/-- All that it takes to run a query once. -/
structure Descriptor where
  /-- The remote name of the table. -/
  table : String
  options : ListOptions
  /-- How the records of the answer are decoded. -/
  projection : Projection

namespace Descriptor

/-- The request that is sent. -/
def request (d : Descriptor) : Request := ⟨d.table, d.options⟩

/-- Whether two descriptors send the same request and decode with the same projection. -/
def same (a b : Descriptor) : Bool :=
  a.table == b.table && a.options == b.options && a.projection.same b.projection

end Descriptor

/-- What a query is filtered by. -/
inductive Filter where
  /-- A formula that is text already. -/
  | text (formula : String)
  /-- An expression, which is compiled when the filter is set. -/
  | expr (expr : Expr)

/-- Writes the formula of a filter. Text stays as it is. -/
def Filter.compile : Filter → Compilation
  | .text formula => .text formula
  | .expr e => e.compile

/-- A configured query. -/
structure Query where
  base : Base
  table : Table
  /-- The fields that were asked for; nothing means all fields of the table. -/
  chosen : Option Projection
  /-- The formula that records must satisfy. -/
  formula : Option String
  /-- The sort keys, the most significant first. -/
  sorts : List SortKey
  /-- The view to read from. -/
  viewName : Option String

namespace Query

/-- A query of which only the fields are chosen. -/
def new (base : Base) (table : Table) (chosen : Option Projection) : Query :=
  ⟨base, table, chosen, none, [], none⟩

/-- Sets the filter, replacing the one before. -/
def filter (q : Query) (formula : String) : Query := { q with formula := some formula }

/-- Adds sort keys after the ones before. -/
def orderBy (q : Query) (sorts : List SortKey) : Query := { q with sorts := q.sorts ++ sorts }

/-- Sets the view, replacing the one before. -/
def view (q : Query) (name : String) : Query := { q with viewName := some name }

end Query

/-- One setting of a query. -/
inductive Setting where
  | filter (filter : Filter)
  | orderBy (sorts : List SortKey)
  | view (name : String)

/-- What is reported when a setting is made. -/
def Setting.events : Setting → List Event
  | .filter f => f.compile.events
  | .orderBy _ => []
  | .view _ => []

namespace Query

/-- Makes a setting. A filter without a formula is not set. -/
def set (q : Query) : Setting → Except Malformed Query
  | .filter f => f.compile.result.map q.filter
  | .orderBy sorts => .ok (q.orderBy sorts)
  | .view name => .ok (q.view name)

/-- How rows are decoded: with the chosen fields, or with all fields of the table. -/
def projection (q : Query) : Projection := q.chosen.getD q.table.projection

/-- The options of the request. -/
def options (q : Query) : ListOptions where
  filter := q.formula
  sort := if q.sorts.isEmpty then none else some (q.sorts.map SortKey.spec)
  fields := (q.chosen.filter fun p => !p.isEmpty).map Projection.remoteNames
  view := q.viewName

/-- The request of the current settings, and how its answer is decoded. -/
def build (q : Query) : Descriptor := ⟨q.table.remoteName, q.options, q.projection⟩

end Query

/-- What comes of running a descriptor. -/
structure Execution where
  events : List Event
  result : Except Error (List Row)

/-- The span of a run. -/
def Descriptor.span (d : Descriptor) (base : Base) : Span := ⟨d.table, base.label.getD ""⟩

/-- Runs a descriptor through a base whose store gives the answer. -/
def execute (base : Base) (d : Descriptor) (answer : Except Error (List Record)) : Execution :=
  let span := d.span base
  let listing :=
    Event.listing span d.options.filter (d.options.sort.elim 0 List.length)
      (d.options.fields.elim 0 List.length) d.options.view
  match answer with
  | .error e => ⟨[listing], .error e⟩
  | .ok records =>
    ⟨listing :: (records.map fun record => Event.decoding span record.id) ++
        [.decoded span records.length],
      .ok (records.map fun record => Row.decode record d.projection)⟩

end RecordQuery
