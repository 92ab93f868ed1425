import RecordQuery.Query
import RecordQuery.Service

/-!
# Sessions

A session is a workbench on which objects of the library are made step by step and kept
under names. It also holds the record stores that bases lead to, and hands out the stamps
that tell fields apart and the nodes of errors.

An `Action` is a piece of a step: it may change the session and may be refused, and what it
changed before it was refused stays changed.

An error is *live* as long as somebody holds it: a name of the session, or a store that can
be reached from a base or a query under a name.
-/

namespace RecordQuery

/-- The name of an object in a session. -/
abbrev Handle := String

/-- What is kept under names. -/
inductive Object where
  | field (field : Field)
  | table (table : Table)
  | schema (schema : Schema)
  | projection (projection : Projection)
  | sort (key : SortKey)
  | expr (expr : Expr)
  | base (base : Base)
  | query (query : Query)
  | descriptor (descriptor : Descriptor)
  | row (row : Row)
  /-- The error of a node. -/
  | error (node : Nat)

namespace Object

/-- The field that an object is. -/
def field? : Object → Option Field
  | .field found => some found
  | _ => none

/-- The table that an object is. -/
def table? : Object → Option Table
  | .table found => some found
  | _ => none

/-- The schema that an object is. -/
def schema? : Object → Option Schema
  | .schema found => some found
  | _ => none

/-- The projection that an object is. -/
def projection? : Object → Option Projection
  | .projection found => some found
  | _ => none

/-- The sort key that an object is. -/
def sort? : Object → Option SortKey
  | .sort found => some found
  | _ => none

/-- The expression that an object is. -/
def expr? : Object → Option Expr
  | .expr found => some found
  | _ => none

/-- The base that an object is. -/
def base? : Object → Option Base
  | .base found => some found
  | _ => none

/-- The query that an object is. -/
def query? : Object → Option Query
  | .query found => some found
  | _ => none

/-- The descriptor that an object is. -/
def descriptor? : Object → Option Descriptor
  | .descriptor found => some found
  | _ => none

/-- The row that an object is. -/
def row? : Object → Option Row
  | .row found => some found
  | _ => none

/-- The node of the error that an object is. -/
def error? : Object → Option Nat
  | .error found => some found
  | _ => none

/-- The record store that an object leads to. -/
def service? : Object → Option Nat
  | .base b => some b.service
  | .query q => some q.base.service
  | _ => none

end Object

/-- A session. -/
structure Session where
  /-- The next stamp. -/
  fresh : Nat
  /-- The record stores, in the order of their making. -/
  services : List Service
  /-- The nodes of errors. -/
  heap : ErrorHeap
  /-- The named objects. -/
  names : NameMap Object
  /-- The events of the current step, in order. -/
  events : List Event

namespace Session

/-- The session in which nothing was done yet. -/
def empty : Session := ⟨0, [], .empty, .empty, []⟩

/-- The node of the error that a store answers with, if it does. -/
def failure? (session : Session) (service : Nat) : Option Nat :=
  session.services[service]?.bind fun s => s.response.failure?

/-- The node of the error that an object holds, if it holds one: its own, or that of the store
it leads to. -/
def root? (session : Session) : Object → Option Nat
  | .error node => some node
  | other => other.service?.bind session.failure?

/-- The nodes of the errors that are held under names. -/
def roots (session : Session) : List Nat := session.names.items.filterMap session.root?

end Session

/-- Why a step is refused. -/
inductive Refusal where
  /-- A name stands for no object of the right type. -/
  | unbound
  /-- A helper is given another number of operands than it takes. -/
  | inapplicable
  /-- The operation fails with an error. -/
  | failed (error : Error)
  /-- An expression has no formula. -/
  | malformed (reason : Malformed)
  /-- Context cannot be added. -/
  | noContext (fault : ContextFault)

/-- A piece of a step. -/
abbrev Action := ExceptT Refusal (StateM Session)

namespace Action

/-- A new stamp. -/
def stamp : Action Nat :=
  modifyGet fun session => (session.fresh, { session with fresh := session.fresh + 1 })

/-- Reports events. -/
def report (events : List Event) : Action Unit :=
  modify fun session => { session with events := session.events ++ events }

/-- Keeps an object under a name. -/
def keep (handle : Handle) (object : Object) : Action Unit :=
  modify fun session => { session with names := session.names.insert handle object }

/-- Takes a name away. -/
def release (handle : Handle) : Action Unit :=
  modify fun session => { session with names := session.names.erase handle }

/-- The object of a type that a name stands for. -/
def lookUp {α : Type} (select : Object → Option α) (handle : Handle) : Action α := do
  match ((← get).names.get? handle).bind select with
  | some found => return found
  | none => throw .unbound

/-- The field under a name. -/
def field : Handle → Action Field := lookUp Object.field?

/-- The table under a name. -/
def table : Handle → Action Table := lookUp Object.table?

/-- The schema under a name. -/
def schema : Handle → Action Schema := lookUp Object.schema?

/-- The projection under a name. -/
def projection : Handle → Action Projection := lookUp Object.projection?

/-- The sort key under a name. -/
def sort : Handle → Action SortKey := lookUp Object.sort?

/-- The expression under a name. -/
def expr : Handle → Action Expr := lookUp Object.expr?

/-- The base under a name. -/
def base : Handle → Action Base := lookUp Object.base?

/-- The query under a name. -/
def query : Handle → Action Query := lookUp Object.query?

/-- The descriptor under a name. -/
def descriptor : Handle → Action Descriptor := lookUp Object.descriptor?

/-- The row under a name. -/
def row : Handle → Action Row := lookUp Object.row?

/-- The node of the error under a name. -/
def error : Handle → Action Nat := lookUp Object.error?

/-- The error of a node. -/
def errorOf (node : Nat) : Action Error := do
  match (← get).heap.error? node with
  | some e => return e
  | none => throw .unbound

/-- What an operation of the library gives, or its error. -/
def ofExcept {α : Type} : Except Error α → Action α
  | .ok value => return value
  | .error e => throw (.failed e)

/-- The formula of an expression. The quotes in it are reported, up to the malformed node if
there is one. -/
def compile (expr : Expr) : Action String := do
  report expr.compile.events
  match expr.compile.result with
  | .ok text => return text
  | .error reason => throw (.malformed reason)

/-- Fields under logical names. -/
def fields (named : List (String × Handle)) : Action (List (String × Field)) :=
  named.mapM fun entry => return (entry.1, ← field entry.2)

end Action

end RecordQuery
