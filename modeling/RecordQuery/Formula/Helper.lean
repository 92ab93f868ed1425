import RecordQuery.Formula.Expr

/-!
# Helpers that Build Expressions

A helper builds one node from its operands. It is of one of five kinds: it takes two operands
and compares them, or calls a function on operands in a row, on one operand, on a condition
and two choices, or on nothing. The kind is a matter of the helper alone, and nobody asks the
function how many arguments it takes.

* `Helper.build?_function_eq_some_iff` — helpers of functions take as many operands as their
  functions take arguments;
* `Helper.build?_comparison_eq_some_iff` — helpers of comparisons take two.
-/

namespace RecordQuery

/-- What builds a node from operands. -/
inductive Helper where
  | comparison (op : Comparison)
  | function (fn : Function)
  deriving DecidableEq

namespace Helper

/-- All helpers. -/
def all : List Helper := Comparison.all.map .comparison ++ Function.all.map .function

/-- The name of a helper. -/
def name : Helper → String
  | .comparison .eq => "eq"
  | .comparison .neq => "neq"
  | .comparison .gt => "gt"
  | .comparison .gte => "gte"
  | .comparison .lt => "lt"
  | .comparison .lte => "lte"
  | .function .and => "and"
  | .function .or => "or"
  | .function .not => "not"
  | .function .concatenate => "concatenate"
  | .function .sum => "sum"
  | .function .average => "average"
  | .function .min => "min"
  | .function .max => "max"
  | .function .ifThenElse => "ifs"
  | .function .lower => "lower"
  | .function .upper => "upper"
  | .function .trim => "trim"
  | .function .len => "len"
  | .function .blank => "blank"
  | .function .error => "error"

/-- The helper of a name. -/
def ofName? (name : String) : Option Helper := all.find? fun helper => helper.name == name

/-- How many operands a helper takes. -/
def arity : Helper → Arity
  | .comparison _ => .exactly 2
  | .function fn => fn.arity

/-! ### Kinds of helpers -/

/-- Compares two operands. -/
def pair? (op : Comparison) : List Expr → Option Expr
  | [lhs, rhs] => some (.compare lhs op rhs)
  | _ => none

/-- Calls a function on operands in a row, in any number. -/
def row? (fn : Function) (operands : List Expr) : Option Expr := some (.call fn operands)

/-- Calls a function on one operand. -/
def single? (fn : Function) : List Expr → Option Expr
  | [operand] => some (.call fn [operand])
  | _ => none

/-- Calls a function on a condition and two choices. -/
def choice? (fn : Function) : List Expr → Option Expr
  | [condition, ifTrue, ifFalse] => some (.call fn [condition, ifTrue, ifFalse])
  | _ => none

/-- Calls a function on nothing. -/
def nothing? (fn : Function) : List Expr → Option Expr
  | [] => some (.call fn [])
  | _ => none

/-- The node over the operands, if there are as many as the helper takes. -/
def build? : Helper → List Expr → Option Expr
  | .comparison op => pair? op
  | .function .and => row? .and
  | .function .or => row? .or
  | .function .not => single? .not
  | .function .concatenate => row? .concatenate
  | .function .sum => row? .sum
  | .function .average => row? .average
  | .function .min => row? .min
  | .function .max => row? .max
  | .function .ifThenElse => choice? .ifThenElse
  | .function .lower => single? .lower
  | .function .upper => single? .upper
  | .function .trim => single? .trim
  | .function .len => single? .len
  | .function .blank => nothing? .blank
  | .function .error => nothing? .error

variable {fn : Function} {operands : List Expr} {e : Expr}

theorem pair?_eq_some_iff {op : Comparison} :
    pair? op operands = some e ↔ ∃ lhs rhs, operands = [lhs, rhs] ∧ e = .compare lhs op rhs := by
  constructor
  · match operands with
    | [lhs, rhs] => exact fun h => ⟨lhs, rhs, rfl, (Option.some.inj h).symm⟩
    | [] | [_] | _ :: _ :: _ :: _ => exact nofun
  · rintro ⟨lhs, rhs, rfl, rfl⟩
    rfl

theorem row?_eq_some_iff :
    row? fn operands = some e ↔
      Arity.variadic.accepts operands.length = true ∧ e = .call fn operands := by
  simp [row?, Arity.accepts, eq_comm]

theorem single?_eq_some_iff :
    single? fn operands = some e ↔
      (Arity.exactly 1).accepts operands.length = true ∧ e = .call fn operands := by
  match operands with
  | [operand] => simp [single?, Arity.accepts, eq_comm]
  | [] | _ :: _ :: _ => simp [single?, Arity.accepts]

theorem choice?_eq_some_iff :
    choice? fn operands = some e ↔
      (Arity.exactly 3).accepts operands.length = true ∧ e = .call fn operands := by
  match operands with
  | [condition, ifTrue, ifFalse] => simp [choice?, Arity.accepts, eq_comm]
  | [] | [_] | [_, _] | _ :: _ :: _ :: _ :: _ => simp [choice?, Arity.accepts]

theorem nothing?_eq_some_iff :
    nothing? fn operands = some e ↔
      (Arity.exactly 0).accepts operands.length = true ∧ e = .call fn operands := by
  match operands with
  | [] => simp [nothing?, Arity.accepts, eq_comm]
  | _ :: _ => simp [nothing?, Arity.accepts]

/-- A helper of a comparison takes two operands and compares them. -/
theorem build?_comparison_eq_some_iff {op : Comparison} :
    build? (.comparison op) operands = some e ↔
      ∃ lhs rhs, operands = [lhs, rhs] ∧ e = .compare lhs op rhs :=
  pair?_eq_some_iff

/-- **Helpers and functions agree**: a helper of a function takes as many operands as the function
takes arguments, and calls the function on them. -/
theorem build?_function_eq_some_iff :
    build? (.function fn) operands = some e ↔
      fn.accepts operands.length = true ∧ e = .call fn operands := by
  cases fn with
  | and | or | concatenate | sum | average | min | max => exact row?_eq_some_iff
  | not | lower | upper | trim | len => exact single?_eq_some_iff
  | ifThenElse => exact choice?_eq_some_iff
  | blank | error => exact nothing?_eq_some_iff

/-- A helper builds something exactly from as many operands as it takes. -/
theorem exists_build?_iff {helper : Helper} :
    (∃ e, helper.build? operands = some e) ↔ helper.arity.accepts operands.length = true := by
  cases helper with
  | comparison op =>
      match operands with
      | [lhs, rhs] => exact iff_of_true ⟨_, rfl⟩ rfl
      | [] | [_] | _ :: _ :: _ :: _ =>
          simp [build?, pair?, arity, Arity.accepts]
  | function fn => simp only [build?_function_eq_some_iff, exists_and_left, exists_eq, and_true,
      arity, Function.accepts]

end Helper

/-- A literal of the 32-bit format is held as the 64-bit number nearest to its own shortest
decimal, so that it is written with the digits it has itself. -/
def Literal.ofSingle (x : Binary32) : Literal := .float x.widen

end RecordQuery
