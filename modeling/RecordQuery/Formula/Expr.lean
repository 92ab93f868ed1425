import RecordQuery.Field
import RecordQuery.Formula.Function
import RecordQuery.Number.Layout

/-!
# Expressions

An expression says which records a query wants: comparisons and function calls over fields,
literals and formulas that are text already. Nothing is checked when an expression is
built; `Expr.compile` finds the malformed ones.

* `Expr.same` — structural equality, fields by their making and floats as numbers;
* `Expr.outline` — the tree as it is shown to a reader.
-/

namespace RecordQuery

/-- A literal operand. -/
inductive Literal where
  | text (value : String)
  | integer (value : Int64)
  | float (value : Binary64)
  deriving DecidableEq

/-- A node of an expression tree. -/
inductive Expr where
  /-- A reference to a field. -/
  | field (field : Field)
  /-- A literal. -/
  | literal (value : Literal)
  /-- A formula that is text already. -/
  | formula (text : String)
  /-- A comparison. -/
  | compare (lhs : Expr) (op : Comparison) (rhs : Expr)
  /-- A function call. -/
  | call (fn : Function) (args : List Expr)
  deriving Inhabited

namespace Literal

/-- Literals are equal when they are of one kind and their values are; floats as numbers. -/
def same : Literal → Literal → Bool
  | .text a, .text b => a == b
  | .integer a, .integer b => a == b
  | .float a, .float b => a.same b
  | _, _ => false

/-- Floats in outlines: positional from `0.0001` up to sixteen digits, always with a point;
zero keeps its sign, and of two equally close shortest decimals the greater one is shown. -/
def outlineFloats : Layout := ⟨.up, -4, 16, true, true, false⟩

-- Whole numbers keep their point, and positive exponents have no sign.
example : outlineFloats.render (.ofBits 0x403e000000000000 : Binary64) = "30.0" := by
  decide +kernel
example : outlineFloats.render (.ofBits 0x4341c37937e08000 : Binary64) = "1e16" := by
  decide +kernel

/-- A literal as it is shown to a reader. -/
def outline : Literal → String
  | .text value => "String(" ++ Text.quoted value ++ ")"
  | .integer value => "I64(" ++ toString value.toInt ++ ")"
  | .float value => "F64(" ++ outlineFloats.render value ++ ")"

end Literal

namespace Expr

/-- Whether an expression is a bare field. -/
def isField : Expr → Bool
  | .field _ => true
  | _ => false

/-- Whether an expression is a bare literal. -/
def isLiteral : Expr → Bool
  | .literal _ => true
  | _ => false

mutual

/-- Structural equality: fields by their making, floats as numbers. -/
def same : Expr → Expr → Bool
  | .field a, .field b => a.same b
  | .literal a, .literal b => a.same b
  | .formula a, .formula b => a == b
  | .compare l op r, .compare l' op' r' => same l l' && op == op' && same r r'
  | .call fn args, .call fn' args' => fn == fn' && sameAll args args'
  | _, _ => false

/-- Equality operand by operand. -/
def sameAll : List Expr → List Expr → Bool
  | [], [] => true
  | a :: as, b :: bs => same a b && sameAll as bs
  | _, _ => false

end

/-- Fields are equal as operands as they are equal on their own. -/
theorem same_field (f g : Field) : same (.field f) (.field g) = f.same g := by
  rw [same]

mutual

/-- A tree as it is shown to a reader. -/
def outline : Expr → String
  | .field f => "Field(" ++ f.outline ++ ")"
  | .literal value => "Value(" ++ value.outline ++ ")"
  | .formula text => "Formula(Formula(" ++ Text.quoted text ++ "))"
  | .compare lhs op rhs =>
    "BinaryOp(ExprBinaryOp \x7b lhs: " ++ outline lhs ++ ", op: " ++ op.symbol ++
      ", rhs: " ++ outline rhs ++ " \x7d)"
  | .call fn args =>
    "Func(ExprFunc \x7b func: " ++ fn.outline ++ ", args: [" ++ outlineAll "" args ++ "] \x7d)"

/-- Trees in a row, the first after `mark` and the others after a comma. -/
def outlineAll (mark : String) : List Expr → String
  | [] => ""
  | expr :: rest => mark ++ outline expr ++ outlineAll ", " rest

end

end Expr

end RecordQuery
