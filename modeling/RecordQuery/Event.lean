import RecordQuery.Formula.Compile

/-!
# Log Events

What the library reports while it works. Compiling reports the text literals that hold a
quote; running a request reports the request, every record and the number of records, each
within the *span* of that run.

An `Event` is what happened; its level, message, fields and span are read off it.
-/

namespace RecordQuery

/-- How much an event matters. -/
inductive Level where
  | warn
  | debug
  | trace
  deriving DecidableEq

/-- The value of a field of an event. -/
inductive EventValue where
  | text (value : String)
  | count (value : Nat)
  deriving DecidableEq

/-- The run of one request: its table, and the label of the base or nothing. -/
structure Span where
  table : String
  base : String
  deriving DecidableEq

/-- What a span is called. -/
def Span.name : String := "list_records"

/-- The fields of a span. -/
def Span.fields (span : Span) : List (String × String) :=
  [("table", span.table), ("base", span.base)]

/-- Something that happened. -/
inductive Event where
  /-- A text literal that holds a single quote was written as it is. -/
  | quoteInLiteral (literal : String)
  /-- A request is about to be sent. -/
  | listing (span : Span) (filter : Option String) (sorts fields : Nat) (view : Option String)
  /-- A record is about to be decoded. -/
  | decoding (span : Span) (id : String)
  /-- All records of an answer are decoded. -/
  | decoded (span : Span) (records : Nat)
  deriving DecidableEq

namespace Event

/-- How much an event matters. -/
def level : Event → Level
  | .quoteInLiteral _ => .warn
  | .listing .. => .debug
  | .decoding .. => .trace
  | .decoded .. => .debug

/-- What is said about an event. -/
def message : Event → String
  | .quoteInLiteral _ => "string literal contains a single quote and is rendered unescaped"
  | .listing .. => "listing records"
  | .decoding .. => "decoding record"
  | .decoded .. => "decoded records"

/-- The details of an event. A setting that is absent is left out. -/
def fields : Event → List (String × EventValue)
  | .quoteInLiteral literal => [("literal", .text literal)]
  | .listing _ filter sorts fields view =>
    (filter.map fun text => ("filter", EventValue.text text)).toList ++
      [("sorts", .count sorts), ("fields", .count fields)] ++
      (view.map fun text => ("view", EventValue.text text)).toList
  | .decoding _ id => [("id", .text id)]
  | .decoded _ records => [("records", .count records)]

/-- The run within which an event happened. -/
def span? : Event → Option Span
  | .quoteInLiteral _ => none
  | .listing span .. => some span
  | .decoding span _ => some span
  | .decoded span _ => some span

end Event

/-- The events of a compilation: one for each text literal that holds a quote. -/
def Compilation.events (compilation : Compilation) : List Event :=
  compilation.quotes.map .quoteInLiteral

end RecordQuery
