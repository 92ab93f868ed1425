import RecordQuery.Formula.Helper
import RecordQuery.Session.State

/-!
# Recipes for Expressions

A recipe says how to build an expression in a session: from named fields and expressions,
from fields made for the purpose, from literals and formulas, and with helpers or by hand.
-/

namespace RecordQuery

/-- How to build an expression. -/
inductive Recipe where
  /-- A new text field of a remote name. -/
  | newField (remoteName : String)
  /-- The field under a name. -/
  | field (handle : Handle)
  /-- The expression under a name. -/
  | expr (handle : Handle)
  /-- A literal. -/
  | literal (value : Literal)
  /-- A formula that is text already. -/
  | formula (text : String)
  /-- The formula of an expression, compiled on the spot. -/
  | compiled (recipe : Recipe)
  /-- A comparison, made by hand. -/
  | compare (lhs : Recipe) (op : Comparison) (rhs : Recipe)
  /-- A function call, made by hand. -/
  | call (fn : Function) (args : List Recipe)
  /-- What a helper builds. -/
  | helper (helper : Helper) (operands : List Recipe)
  /-- What a helper of one operand builds, applied `count` times. -/
  | nest (helper : Helper) (count : Nat) (operand : Recipe)
  /-- What a helper of two operands builds, from the left. -/
  | fold (helper : Helper) (first : Recipe) (others : List Recipe)

namespace Recipe

/-- What a helper builds. -/
def apply (helper : Helper) (operands : List Expr) : Action Expr :=
  match helper.build? operands with
  | some built => return built
  | none => throw .inapplicable

/-- What a helper of one operand builds, applied `count` times. -/
def applyTimes (helper : Helper) : Nat → Expr → Action Expr
  | 0, operand => return operand
  | count + 1, operand => do applyTimes helper count (← apply helper [operand])

mutual

/-- Builds an expression. -/
def build : Recipe → Action Expr
  | .newField remoteName => return .field ⟨← Action.stamp, .text, remoteName⟩
  | .field handle => return .field (← Action.field handle)
  | .expr handle => Action.expr handle
  | .literal value => return .literal value
  | .formula text => return .formula text
  | .compiled recipe => do return .formula (← Action.compile (← build recipe))
  | .compare lhs op rhs => return .compare (← build lhs) op (← build rhs)
  | .call fn args => return .call fn (← buildAll args)
  | .helper h operands => do apply h (← buildAll operands)
  | .nest h count operand => do applyTimes h count (← build operand)
  | .fold h first others => do
    let first ← build first
    (← buildAll others).foldlM (fun acc other => apply h [acc, other]) first

/-- Builds expressions in order. -/
def buildAll : List Recipe → Action (List Expr)
  | [] => return []
  | recipe :: rest => return (← build recipe) :: (← buildAll rest)

end

end Recipe

end RecordQuery
