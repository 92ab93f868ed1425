import RecordQuery.Error.Shared
import RecordQuery.Record
import RecordQuery.Request

/-!
# Record Stores in Memory

A store that gives every request the same answer, records or an error, and remembers what it
was asked.
-/

namespace RecordQuery

/-- What a store answers. -/
inductive Response where
  | records (records : List Record)
  /-- The error of a node. -/
  | failure (node : Nat)

/-- The node of the error that a store keeps, if any. -/
def Response.failure? : Response → Option Nat
  | .records _ => none
  | .failure node => some node

/-- A store in memory. -/
structure Service where
  /-- The answer to every request. -/
  response : Response
  /-- The requests received, in order. -/
  received : List Request

namespace Service

/-- A store that was not asked anything yet. -/
def new (response : Response) : Service := ⟨response, []⟩

/-- Remembers a request. -/
def receive (service : Service) (request : Request) : Service :=
  { service with received := service.received ++ [request] }

end Service

end RecordQuery
