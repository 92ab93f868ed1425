import RecordQuery.Error

/-!
# Errors that are Shared

One error may be held in several places at once: under names, as the cause of other errors,
wrapped in a failure, as the answer of a record store. Every report then sits in a *node*,
and holding an error is holding the number of its newest node. A node holds its cause and,
if it passes on a failure that wraps another error, that error as well.

Context is added in place: the node of the context gets a cause, which everybody sees who
holds that node. So the node must be at nobody else's disposal: it must not have a cause
already, and nobody else may hold it.

* `ErrorHeap.error?` — the error of a node;
* `ErrorHeap.holds` — which nodes the holder of a node holds with it;
* `ErrorHeap.context` — puts the node of a context in front of an error.
-/

namespace RecordQuery

/-- What a node says. -/
inductive NodeContent where
  /-- A report. -/
  | report (report : Report)
  /-- A failure of the record store that wraps the error of another node. -/
  | service (wrapped : Nat)
  /-- Any other failure that wraps the error of another node. -/
  | external (wrapped : Nat)
  deriving DecidableEq

namespace NodeContent

/-- The node of the error that is wrapped. -/
def wrapped? : NodeContent → Option Nat
  | .report _ => none
  | .service wrapped => some wrapped
  | .external wrapped => some wrapped

/-- The report that is made, where `error?` gives the errors of other nodes. -/
def report? (error? : Nat → Option Error) : NodeContent → Option Report
  | .report own => some own
  | .service wrapped => (error? wrapped).map fun e => .service e.toFailure
  | .external wrapped => (error? wrapped).map fun e => .external e.toFailure

end NodeContent

/-- A node of an error. -/
structure ErrorNode where
  content : NodeContent
  /-- The node of the cause, once there is one. -/
  cause : Option Nat
  deriving DecidableEq

namespace ErrorNode

/-- The nodes that a node holds. -/
def targets (node : ErrorNode) : List Nat := node.content.wrapped?.toList ++ node.cause.toList

/-- The error of a node, where `error?` gives the errors of other nodes. -/
def read (node : ErrorNode) (error? : Nat → Option Error) : Option Error :=
  (node.content.report? error?).bind fun report =>
    match node.cause with
    | none => some (.ofReport report)
    | some cause => (error? cause).map fun e => e.under report

end ErrorNode

/-- All nodes of errors, numbered in the order of their making. -/
structure ErrorHeap where
  nodes : List ErrorNode

/-- Why context cannot be added. -/
inductive ContextFault where
  /-- The error to be put in front has a cause already. -/
  | hasCause
  /-- Somebody else holds the error to be put in front. -/
  | isShared
  deriving DecidableEq

/-- What is said when context cannot be added. -/
def ContextFault.message : ContextFault → String
  | .hasCause => "consequent error must not already have a cause"
  | .isShared => "called `Option::unwrap()` on a `None` value"

namespace ErrorHeap

/-- The heap without nodes. -/
def empty : ErrorHeap := ⟨[]⟩

/-- The number of nodes. -/
def size (heap : ErrorHeap) : Nat := heap.nodes.length

/-- The nodes that a node holds. -/
def targets (heap : ErrorHeap) (n : Nat) : List Nat :=
  (heap.nodes[n]?.map ErrorNode.targets).getD []

/-- The node of the cause of a node, if it has one. -/
def cause? (heap : ErrorHeap) (n : Nat) : Option Nat := heap.nodes[n]?.bind ErrorNode.cause

/-- Adds a node without a cause. Its number is the size of the heap before. -/
def add (heap : ErrorHeap) (content : NodeContent) : ErrorHeap :=
  ⟨heap.nodes ++ [⟨content, none⟩]⟩

/-- Gives a node a cause. -/
def setCause (heap : ErrorHeap) (n cause : Nat) : ErrorHeap :=
  ⟨heap.nodes.modify n fun node => { node with cause := some cause }⟩

/-- The error of a node, if nothing behind it is further away than `depth`. -/
def readWithin (heap : ErrorHeap) : Nat → Nat → Option Error
  | 0, _ => none
  | depth + 1, n => heap.nodes[n]?.bind fun node => node.read (heap.readWithin depth)

/-- The error of a node. Nothing is further away than there are nodes. -/
def error? (heap : ErrorHeap) (n : Nat) : Option Error := heap.readWithin heap.size n

/-- The nodes that the holder of a node holds, itself included, up to a distance. -/
def heldWithin (heap : ErrorHeap) : Nat → Nat → List Nat
  | 0, _ => []
  | depth + 1, n => n :: (heap.targets n).flatMap (heap.heldWithin depth)

/-- Whether the holder of `root` holds `n`. -/
def holds (heap : ErrorHeap) (root n : Nat) : Bool := (heap.heldWithin heap.size root).contains n

/-- Puts `consequent` in front of `e`, where `others` are all further nodes that somebody
holds. -/
def context (heap : ErrorHeap) (others : List Nat) (e consequent : Nat) :
    Except ContextFault ErrorHeap :=
  if (heap.cause? consequent).isSome then .error .hasCause
  else if (e :: others).any fun root => heap.holds root consequent then .error .isShared
  else .ok (heap.setCause consequent e)

end ErrorHeap

end RecordQuery
