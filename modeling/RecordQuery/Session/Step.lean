import RecordQuery.Error.Outline
import RecordQuery.Session.Operation

/-!
# Steps

A step does one operation and may keep what it made under a name. A step that is refused
keeps nothing, but requests that were sent, events that were reported and an error that was
put in front of another stay sent, reported and given away.

* `Session.step` — does a step: the session after it, and its `Outcome`;
* `Session.run` — the outcomes of a list of steps.
-/

namespace RecordQuery

/-- What an operation makes. -/
inductive Product where
  | nothing
  | object (object : Object)
  | rows (rows : List Row)

/-- A step of a session. -/
structure Step where
  operation : Operation
  /-- The name for what the operation makes. -/
  name : Option Handle

/-- What comes of a step. -/
structure Outcome where
  events : List Event
  result : Except Refusal Answer

namespace Action

/-- A new record store. -/
def newService (response : Response) : Action Nat :=
  modifyGet fun session =>
    (session.services.length,
      { session with services := session.services ++ [.new response] })

/-- The answer of a new record store. -/
def response : ResponseSource → Action Response
  | .decoded values => do
    let records ← values.mapM fun value =>
      ofExcept ((Shaped.decode value).mapError fun e => Error.external e.message)
    return .records records
  | .listed entries => return .records (entries.map fun entry => .ofList entry.1 entry.2)
  | .failing handle => return .failure (← error handle)

/-- Makes a base with a new record store. -/
def newBase (answer : Response) (labels : List String) : Action (Answer × Product) := do
  let made ← ofExcept (Base.build (← get).services.length labels)
  let _ ← newService answer
  return (.base made, .object (.base made))

/-- An answer as it reaches the one who asked. -/
def answer : Response → Action (Except Error (List Record))
  | .records found => return .ok found
  | .failure node => return .error (← errorOf node)

/-- Sends the request of a descriptor through a base and decodes the answer. The store
remembers the request whatever it answers. -/
def execute (base : Base) (descriptor : Descriptor) : Action (List Row) := do
  match (← get).services[base.service]? with
  | none => throw .unbound
  | some service =>
    modify fun session =>
      { session with
        services := session.services.modify base.service (·.receive descriptor.request) }
    let execution := RecordQuery.execute base descriptor (← answer service.response)
    report execution.events
    ofExcept execution.result

/-- Runs a descriptor through a base and answers with the rows, which are also what is made. -/
def executeRows (base : Base) (descriptor : Descriptor) : Action (Answer × Product) := do
  let rows ← execute base descriptor
  return (.rows rows, .rows rows)

/-- Runs a descriptor through a base and reads each row as a structure. -/
def executeAs (base : Base) (descriptor : Descriptor) (target : Target) :
    Action (Answer × Product) := do
  let rows ← execute base descriptor
  let values ← rows.mapM fun row => ofExcept (row.deserialize target.shape)
  return (.values (values.map target.shape.encode), .nothing)

/-- Runs a descriptor through a base for the error of its store. Where the store answers with
records, they are decoded as always. -/
def executeForError (base : Base) (descriptor : Descriptor) : Action (Answer × Product) :=
  tryCatch (executeRows base descriptor) fun refusal => do
    match refusal, (← get).failure? base.service with
    | .failed e, some node => return (.error e, .object (.error node))
    | _, _ => throw refusal

/-- A filter of its source. -/
def filter : FilterSource → Action Filter
  | .text formula => return .text formula
  | .expr recipe => return .expr (← recipe.build)

/-- A new node. -/
def newNode (content : NodeContent) : Action Nat :=
  modifyGet fun session =>
    (session.heap.size, { session with heap := session.heap.add content })

/-- The node of an error of its source. -/
def newError : ErrorSource → Action Nat
  | .report report => newNode (.report report)
  | .serviceOf handle => do newNode (.service (← error handle))
  | .externalOf handle => do newNode (.external (← error handle))
  | .again handle => error handle

/-- Puts one error in front of another. The name of the one in front is taken away first. -/
def addContext (handle context : Handle) : Action Nat := do
  let e ← error handle
  let consequent ← error context
  release context
  let session ← get
  match session.heap.context session.roots e consequent with
  | .ok heap =>
    set { session with heap := heap }
    return consequent
  | .error fault => throw (.noContext fault)

/-- Answers with the error of a node, which is also what is made. -/
def giveError (node : Nat) : Action (Answer × Product) :=
  return (.error (← errorOf node), .object (.error node))

/-- Makes a setting of a query and answers with all its settings. -/
def configure (query : Query) (setting : Setting) : Action (Answer × Product) := do
  report setting.events
  match query.set setting with
  | .ok changed => return (.settings changed.options, .object (.query changed))
  | .error reason => throw (.malformed reason)

/-- Does an operation. -/
def perform : Operation → Action (Answer × Product)
  | .newField type remoteName outlined => do
    let made : Field := ⟨← stamp, type, remoteName⟩
    return (.field made (if outlined then some made.outline else none), .object (.field made))
  | .copyField handle => do
    let found ← field handle
    return (.field found none, .object (.field found))
  | .compareFields a b => return (.fields (← field a) (← field b), .nothing)
  | .countFields handles => return (.count (Field.countDistinct (← handles.mapM field)), .nothing)
  | .newTable remoteName named => do
    let made := Table.ofList remoteName (← fields named)
    return (.table made, .object (.table made))
  | .tableField handle name => do
    let found := (← table handle).field? name
    return (.foundField found, found.elim .nothing fun found => .object (.field found))
  | .projectTable handle names => do
    let made ← ofExcept ((← table handle).project names)
    return (.projection made, .object (.projection made))
  | .wholeProjection handle => do
    let made := (← table handle).projection
    return (.projection made, .object (.projection made))
  | .newSchema handles => do
    let made := Schema.ofList (← handles.mapM table)
    return (.schema made, .object (.schema made))
  | .schemaTable handle remoteName => do
    let found := (← schema handle).table? remoteName
    return (.foundTable found, found.elim .nothing fun found => .object (.table found))
  | .newProjection named => do
    let made := Projection.ofList (← fields named)
    return (.projection made, .object (.projection made))
  | .insertField handle name inserted => do
    let changed := (← projection handle).insert name (← field inserted)
    keep handle (.projection changed)
    return (.projection changed, .object (.projection changed))
  | .projectedField handle name => do
    let found ← projection handle
    return (.projectedField (found.contains name) (found.get? name), .nothing)
  | .compareProjections a b => return (.equal ((← projection a).same (← projection b)), .nothing)
  | .newSort handle direction => do
    let made : SortKey := ⟨← field handle, direction⟩
    return (.sort made, .object (.sort made))
  | .compareSorts a b => return (.equal ((← sort a).same (← sort b)), .nothing)
  | .newExpr recipe outlined => do
    let made ← recipe.build
    return (.expr made (if outlined then some made.outline else none), .object (.expr made))
  | .compile recipe => return (.formula (← compile (← recipe.build)), .nothing)
  | .compareExprs a b => return (.equal ((← a.build).same (← b.build)), .nothing)
  | .compareFormulas a b => return (.formulas a b, .nothing)
  | .newBase source labels => do newBase (← response source) labels
  | .copyBase handle => do
    let found ← base handle
    return (.base found, .object (.base found))
  | .received handle => do
    let found ← base handle
    return (.requests ((← get).services[found.service]?.elim [] Service.received), .nothing)
  | .newQuery baseHandle tableHandle chosen => do
    let found ← base baseHandle
    let target ← table tableHandle
    let made := Query.new found target (← chosen.mapM projection)
    return (.query made, .object (.query made))
  | .filter handle source => do configure (← query handle) (.filter (← filter source))
  | .orderBy handle sorts => do configure (← query handle) (.orderBy (← sorts.mapM sort))
  | .view handle name => do configure (← query handle) (.view name)
  | .build handle => do
    let made := (← query handle).build
    return (.descriptor made, .object (.descriptor made))
  | .compareDescriptors a b => return (.descriptors (← descriptor a) (← descriptor b), .nothing)
  | .execute baseHandle handle => do
    let found ← base baseHandle
    executeRows found (← descriptor handle)
  | .run handle => do
    let found ← query handle
    executeRows found.base found.build
  | .runAs handle target => do
    let found ← query handle
    executeAs found.base found.build target
  | .executeForError baseHandle handle => do
    let found ← base baseHandle
    executeForError found (← descriptor handle)
  | .runForError handle => do
    let found ← query handle
    executeForError found.base found.build
  | .newRow id entries => do
    let made := Row.ofList id entries
    return (.row made, .object (.row made))
  | .rowValue handle name => do
    let found ← row handle
    return (.rowValue (found.contains name) (found.get? name), .nothing)
  | .readRow handle name accessor => do
    let found ← row handle
    return (.value (← ofExcept (accessor.read found name)), .nothing)
  | .writeRow handle => do
    let found ← row handle
    return (.written found.toText found.toJson, .nothing)
  | .compareRows a b => return (.equal ((← row a).same (← row b)), .nothing)
  | .deserializeRow handle target => do
    let found ← row handle
    let value ← ofExcept (found.deserialize target.shape)
    return (.value (target.shape.encode value), .nothing)
  | .newError source => do giveError (← newError source)
  | .addContext handle context => do giveError (← addContext handle context)
  | .outlineError handle => return (.outline (← errorOf (← error handle)).outline, .nothing)

/-- Keeps what an operation made under a name; rows are numbered. -/
def keepProduct (name : Handle) : Product → Action Unit
  | .nothing => return
  | .object made => keep name made
  | .rows rows =>
    rows.zipIdx.forM fun entry => keep (name ++ "." ++ toString entry.2) (.row entry.1)

/-- Keeps what an operation made if there is a name for it. -/
def keepNamed (name : Option Handle) (product : Product) : Action Unit :=
  match name with
  | some name => keepProduct name product
  | none => return

end Action

/-- The name that is used when a step gives none: settings go to their query. -/
def Operation.defaultName : Operation → Option Handle
  | .filter query _ => some query
  | .orderBy query _ => some query
  | .view query _ => some query
  | _ => none

namespace Session

/-- Does the operation of a step and keeps what it made. -/
def stepAction (step : Step) : Action Answer := do
  let (answer, product) ← Action.perform step.operation
  Action.keepNamed (step.name.or step.operation.defaultName) product
  return answer

/-- Does a step. -/
def step (session : Session) (step : Step) : Outcome × Session :=
  let (result, after) := (stepAction step).run.run { session with events := [] }
  (⟨after.events, result⟩, after)

/-- Does steps in order. A refused step does not keep the others from being done. -/
def runFrom (session : Session) : List Step → List Outcome
  | [] => []
  | first :: rest =>
    let (outcome, after) := session.step first
    outcome :: after.runFrom rest

/-- The outcomes of steps in a new session. -/
def run (steps : List Step) : List Outcome := empty.runFrom steps

end Session

end RecordQuery
