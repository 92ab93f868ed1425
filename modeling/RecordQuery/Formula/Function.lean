/-!
# Functions and Comparisons

The functions and comparison signs of the remote formula language. Most functions take an
exact number of arguments, the others any number.
-/

namespace RecordQuery

/-- How many arguments a function takes. -/
inductive Arity where
  | exactly (count : Nat)
  | variadic
  deriving DecidableEq

namespace Arity

/-- Whether a number of arguments is acceptable. -/
def accepts : Arity → Nat → Bool
  | .exactly count, n => count == n
  | .variadic, _ => true

/-- An arity as it is shown to a reader. -/
def outline : Arity → String
  | .exactly count => "Exactly(" ++ toString count ++ ")"
  | .variadic => "Variadic"

end Arity

/-- The functions of the formula language. -/
inductive Function where
  | and
  | or
  | not
  | concatenate
  | sum
  | average
  | min
  | max
  | ifThenElse
  | lower
  | upper
  | trim
  | len
  | blank
  | error
  deriving DecidableEq

namespace Function

/-- All functions. -/
def all : List Function :=
  [.and, .or, .not, .concatenate, .sum, .average, .min, .max, .ifThenElse, .lower, .upper,
   .trim, .len, .blank, .error]

/-- The name of a function in a formula. -/
def name : Function → String
  | .and => "AND"
  | .or => "OR"
  | .not => "NOT"
  | .concatenate => "CONCATENATE"
  | .sum => "SUM"
  | .average => "AVERAGE"
  | .min => "MIN"
  | .max => "MAX"
  | .ifThenElse => "IF"
  | .lower => "LOWER"
  | .upper => "UPPER"
  | .trim => "TRIM"
  | .len => "LEN"
  | .blank => "BLANK"
  | .error => "ERROR"

/-- The word for a function in outlines. -/
def outline : Function → String
  | .and => "And"
  | .or => "Or"
  | .not => "Not"
  | .concatenate => "Concatenate"
  | .sum => "Sum"
  | .average => "Average"
  | .min => "Min"
  | .max => "Max"
  | .ifThenElse => "If"
  | .lower => "Lower"
  | .upper => "Upper"
  | .trim => "Trim"
  | .len => "Len"
  | .blank => "Blank"
  | .error => "Error"

/-- How many arguments a function takes. -/
def arity : Function → Arity
  | .and | .or | .concatenate | .sum | .average | .min | .max => .variadic
  | .not | .lower | .upper | .trim | .len => .exactly 1
  | .ifThenElse => .exactly 3
  | .blank | .error => .exactly 0

/-- Whether a number of arguments is acceptable for a function. -/
def accepts (fn : Function) (count : Nat) : Bool := fn.arity.accepts count

/-- The function of a name. -/
def ofName? (name : String) : Option Function := all.find? fun fn => fn.name == name

/-- A function is found by its name. -/
@[simp] theorem ofName?_name (fn : Function) : ofName? fn.name = some fn := by
  cases fn <;> decide

/-- No two functions have one name. -/
theorem name_injective {fn fn' : Function} (h : fn.name = fn'.name) : fn = fn' := by
  have hfind := ofName?_name fn
  rw [h, ofName?_name] at hfind
  exact (Option.some.inj hfind).symm

/-- A name ends before the arguments. -/
theorem paren_not_mem_name (fn : Function) : '(' ∉ fn.name.toList := by
  cases fn <;> decide

end Function

/-- The comparisons of the formula language. -/
inductive Comparison where
  | eq
  | neq
  | gt
  | gte
  | lt
  | lte
  deriving DecidableEq

namespace Comparison

/-- All comparisons. -/
def all : List Comparison := [.eq, .neq, .gt, .gte, .lt, .lte]

/-- The sign of a comparison. -/
def symbol : Comparison → String
  | .eq => "="
  | .neq => "!="
  | .gt => ">"
  | .gte => ">="
  | .lt => "<"
  | .lte => "<="

/-- The comparison of a sign. -/
def ofSymbol? (symbol : String) : Option Comparison := all.find? fun op => op.symbol == symbol

/-- A comparison is found by its sign. -/
@[simp] theorem ofSymbol?_symbol (op : Comparison) : ofSymbol? op.symbol = some op := by
  cases op <;> decide

/-- No two comparisons have one sign. -/
theorem symbol_injective {op op' : Comparison} (h : op.symbol = op'.symbol) : op = op' := by
  have hfind := ofSymbol?_symbol op
  rw [h, ofSymbol?_symbol] at hfind
  exact (Option.some.inj hfind).symm

/-- A sign ends before the blank after it. -/
theorem blank_not_mem_symbol (op : Comparison) : ' ' ∉ op.symbol.toList := by
  cases op <;> decide

end Comparison

end RecordQuery
