import RecordQuery.Error
import RecordQuery.Text.Quoted

/-!
# Outlines of Errors

An error as it is shown to a reader who wants the structure of its chain: one line for each
part, each cause indented below the report it led to.
-/

namespace RecordQuery

/-- The indentation of a depth. -/
def indent (depth : Nat) : String := String.ofList (List.replicate (4 * depth) ' ')

namespace Report

/-- The parts of a report: its kind, the structure below it, and that structure's fields. -/
def parts : Report → String × String × List (String × String)
  | .remark message => ("Adhoc", "AdhocError", [("message", message)])
  | .invalidStatement message =>
    ("InvalidStatement", "InvalidStatementError", [("message", message)])
  | .typeConversion found target =>
    ("TypeConversion", "TypeConversionError", [("found", found.name), ("to_type", target)])
  | .service failure => ("Driver", "DriverError", [("inner", failure.message)])
  | .external failure => ("External", "ExternalError", [("inner", failure.message)])

/-- A report at a depth, without its first indentation. -/
def outline (depth : Nat) (report : Report) : String :=
  let fields := report.parts.2.2.map fun field =>
    indent (depth + 2) ++ field.1 ++ ": " ++ Text.quoted field.2 ++ ",\n"
  report.parts.1 ++ "(\n" ++ indent (depth + 1) ++ report.parts.2.1 ++ " \x7b\n" ++
    "".intercalate fields ++ indent (depth + 1) ++ "\x7d,\n" ++ indent depth ++ ")"

end Report

namespace Error

/-- The chain from its newest report on at a depth, without its first indentation. -/
def outlineFrom (depth : Nat) (newest : Report) : List Report → String
  | [] =>
    "Error \x7b\n" ++ indent (depth + 1) ++ "kind: " ++ newest.outline (depth + 1) ++ ",\n" ++
      indent (depth + 1) ++ "cause: None,\n" ++ indent depth ++ "\x7d"
  | cause :: causes =>
    "Error \x7b\n" ++ indent (depth + 1) ++ "kind: " ++ newest.outline (depth + 1) ++ ",\n" ++
      indent (depth + 1) ++ "cause: Some(\n" ++ indent (depth + 2) ++
      outlineFrom (depth + 2) cause causes ++ ",\n" ++ indent (depth + 1) ++ "),\n" ++
      indent depth ++ "\x7d"

/-- An error as it is shown to a reader. -/
def outline (e : Error) : String := outlineFrom 0 e.newest e.causes

/-- An error as it is shown to a developer: on one line as it reads, on several as an outline. -/
def debug (e : Error) (severalLines : Bool) : String :=
  if severalLines then e.outline else e.display

end Error

end RecordQuery
