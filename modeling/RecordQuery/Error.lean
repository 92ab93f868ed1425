import RecordQuery.Json

/-!
# Errors

An error is a chain of reports: what went wrong, and before it whatever was known about the
circumstances, the newest first. An error reads as the messages of its chain joined by
`: `, and it is of a kind as soon as one report of the chain is.

A `Failure` is an error of some other part of the world that a report passes on: a message
and the messages of its sources.

## Main results

* `Error.messages_under`, `Error.isService_under` and its companions — a report put in
  front of an error adds its own message and keeps every kind the error had.
-/

namespace RecordQuery

/-- An error from outside the library: its message and those of its sources. -/
structure Failure where
  message : String
  sources : List String
  deriving DecidableEq

/-- One thing that is known about an error. -/
inductive Report where
  /-- A free remark. -/
  | remark (message : String)
  /-- A statement that cannot be sent. -/
  | invalidStatement (message : String)
  /-- A value that is not what its reader wants. -/
  | typeConversion (found : Json.Kind) (target : String)
  /-- A failure of the record store or of the way to it. -/
  | service (failure : Failure)
  /-- Any other failure from outside. -/
  | external (failure : Failure)
  deriving DecidableEq

namespace Report

/-- What a report says. A failure of the record store is told with all its sources. -/
def message : Report → String
  | .remark message => message
  | .invalidStatement message => "invalid statement: " ++ message
  | .typeConversion found target => "cannot convert " ++ found.name ++ " to " ++ target
  | .service failure => ": ".intercalate (failure.message :: failure.sources)
  | .external failure => failure.message

/-- Whether a report is about a failure of the record store. -/
def isService : Report → Bool
  | .service _ => true
  | _ => false

/-- Whether a report is about a statement that cannot be sent. -/
def isInvalidStatement : Report → Bool
  | .invalidStatement _ => true
  | _ => false

/-- Whether a report is about a value that is not what its reader wants. -/
def isTypeConversion : Report → Bool
  | .typeConversion .. => true
  | _ => false

/-- What lies behind a report, outermost first. A failure of the record store is itself the
first of its sources. -/
def sources : Report → List String
  | .service failure => message (.service failure) :: failure.message :: failure.sources
  | .external failure => failure.message :: failure.sources
  | _ => []

end Report

/-- An error: its newest report and the causes behind it. -/
structure Error where
  /-- The report that was made last. -/
  newest : Report
  /-- The reports before it, each the cause of the one in front of it. -/
  causes : List Report
  deriving DecidableEq

namespace Error

/-- An error of one report. -/
def ofReport (report : Report) : Error := ⟨report, []⟩

/-- A statement that cannot be sent. -/
def invalidStatement (message : String) : Error := ofReport (.invalidStatement message)

/-- A value that cannot be read as `target`. -/
def typeConversion (value : Json) (target : String) : Error :=
  ofReport (.typeConversion value.kind target)

/-- An error without a kind, from outside the library. -/
def external (message : String) : Error := ofReport (.external ⟨message, []⟩)

/-- The reports of the chain, newest first. -/
def reports (e : Error) : List Report := e.newest :: e.causes

/-- The messages of the chain, newest first. -/
def messages (e : Error) : List String := e.reports.map Report.message

/-- An error as it reads: the messages of its chain. -/
def display (e : Error) : String := ": ".intercalate e.messages

/-- Whether a failure of the record store is in the chain. -/
def isService (e : Error) : Bool := e.reports.any Report.isService

/-- Whether a statement that cannot be sent is in the chain. -/
def isInvalidStatement (e : Error) : Bool := e.reports.any Report.isInvalidStatement

/-- Whether a value that is not what its reader wants is in the chain. -/
def isTypeConversion (e : Error) : Bool := e.reports.any Report.isTypeConversion

/-- What lies behind an error, outermost first. -/
def sources (e : Error) : List String := e.newest.sources

/-- Puts a report in front of an error. -/
def under (e : Error) (report : Report) : Error := ⟨report, e.reports⟩

/-- An error as a failure that another report may pass on. -/
def toFailure (e : Error) : Failure := ⟨e.display, e.sources⟩

/-- The kinds of error. -/
inductive Kind where
  | service
  | invalidStatement
  | typeConversion
  | other
  deriving DecidableEq

/-- The first kind that an error is of. -/
def kind (e : Error) : Kind :=
  if e.isService then .service
  else if e.isInvalidStatement then .invalidStatement
  else if e.isTypeConversion then .typeConversion
  else .other

/-- An error of one report says what the report says. -/
@[simp] theorem display_ofReport (report : Report) : (ofReport report).display = report.message :=
  String.intercalate_singleton

/-- An error of one report is about a failure of the record store if the report is. -/
@[simp] theorem isService_ofReport (report : Report) :
    (ofReport report).isService = report.isService := Bool.or_false _

/-- An error of one report is about a statement that cannot be sent if the report is. -/
@[simp] theorem isInvalidStatement_ofReport (report : Report) :
    (ofReport report).isInvalidStatement = report.isInvalidStatement := Bool.or_false _

/-- An error of one report is about a misread value if the report is. -/
@[simp] theorem isTypeConversion_ofReport (report : Report) :
    (ofReport report).isTypeConversion = report.isTypeConversion := Bool.or_false _

@[simp] theorem reports_under (e : Error) (report : Report) :
    (e.under report).reports = report :: e.reports := rfl

/-- A report in front of an error adds its own message. -/
theorem messages_under (e : Error) (report : Report) :
    (e.under report).messages = report.message :: e.messages := rfl

/-- A report in front of an error keeps a failure of the record store in the chain. -/
theorem isService_under (e : Error) (report : Report) :
    (e.under report).isService = (report.isService || e.isService) := rfl

/-- A report in front of an error keeps a statement that cannot be sent in the chain. -/
theorem isInvalidStatement_under (e : Error) (report : Report) :
    (e.under report).isInvalidStatement =
      (report.isInvalidStatement || e.isInvalidStatement) := rfl

/-- A report in front of an error keeps a misread value in the chain. -/
theorem isTypeConversion_under (e : Error) (report : Report) :
    (e.under report).isTypeConversion = (report.isTypeConversion || e.isTypeConversion) := rfl

end Error

end RecordQuery
