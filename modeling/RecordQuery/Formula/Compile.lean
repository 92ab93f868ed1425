import RecordQuery.Formula.Expr

/-!
# Compiling Expressions

`Expr.compile` writes an expression in the remote formula language. The nodes are visited a
node before its operands and operands from left to right, and two things may come of a
visit besides text:

* a *malformed* node — a call with a number of arguments that its function does not take,
  or a float that is not finite — ends the compilation;
* a text literal that holds a single quote is written as it is, which ends the literal
  early in the remote language, and is reported.

A `Compilation` holds both, and compilations are put in sequence by `++`.
-/

namespace RecordQuery

/-- Why an expression has no formula. -/
inductive Malformed where
  /-- A call with a number of arguments that its function does not take. -/
  | argumentCount (fn : Function) (count : Nat)
  /-- A float literal that is not finite. -/
  | notFinite (value : Binary64)
  deriving DecidableEq

/-- What is said about a malformed node. -/
def Malformed.message : Malformed → String
  | .argumentCount fn count =>
    fn.name ++ " does not accept " ++ toString count ++ " argument(s); arity=" ++
      fn.arity.outline
  | .notFinite value => "number literal must be finite; value=" ++ value.nonFiniteName

@[simp] theorem Malformed.message_argumentCount (fn : Function) (count : Nat) :
    (Malformed.argumentCount fn count).message =
      fn.name ++ " does not accept " ++ toString count ++ " argument(s); arity=" ++
        fn.arity.outline := rfl

@[simp] theorem Malformed.message_notFinite (value : Binary64) :
    (Malformed.notFinite value).message =
      "number literal must be finite; value=" ++ value.nonFiniteName := rfl

/-- What comes of writing a piece of an expression. -/
@[ext] structure Compilation where
  /-- The text literals written so far that hold a single quote, in order. -/
  quotes : List String
  /-- The text written, or the malformed node that ended the writing. -/
  result : Except Malformed String

namespace Compilation

/-- A piece of text. -/
def text (piece : String) : Compilation := ⟨[], .ok piece⟩

/-- A malformed node. -/
def malformed (reason : Malformed) : Compilation := ⟨[], .error reason⟩

/-- One compilation after the other. After a malformed node nothing is written. -/
def append (a b : Compilation) : Compilation :=
  match a.result with
  | .ok written => ⟨a.quotes ++ b.quotes, b.result.map (written ++ ·)⟩
  | .error reason => ⟨a.quotes, .error reason⟩

instance : Append Compilation := ⟨append⟩

/-- What follows a written piece is written after it. -/
theorem append_of_ok {a : Compilation} {written : String} (h : a.result = .ok written)
    (b : Compilation) :
    a ++ b = ⟨a.quotes ++ b.quotes, b.result.map (written ++ ·)⟩ := by
  show append a b = _
  rw [append, h]

/-- Nothing is written after a malformed node. -/
theorem append_of_error {a : Compilation} {reason : Malformed} (h : a.result = .error reason)
    (b : Compilation) : a ++ b = a := by
  show append a b = _
  rw [append, h]
  ext1
  · rfl
  · exact h.symm

/-- Pieces may be grouped in any way. -/
theorem append_assoc (a b c : Compilation) : a ++ b ++ c = a ++ (b ++ c) := by
  cases ha : a.result with
  | error reason => rw [append_of_error ha, append_of_error ha, append_of_error ha]
  | ok s =>
      rw [append_of_ok ha, append_of_ok ha]
      cases hb : b.result with
      | error reason =>
          rw [append_of_error hb, append_of_error rfl, hb]
      | ok t =>
          rw [append_of_ok hb, append_of_ok rfl, List.append_assoc]
          cases c.result with
          | error reason => rfl
          | ok u => simp only [Except.map, String.append_assoc]

/-- The empty text in front adds nothing. -/
@[simp] theorem text_empty_append (a : Compilation) : text "" ++ a = a := by
  rw [append_of_ok (show (text "").result = .ok "" from rfl)]
  ext1
  · rfl
  · cases a.result with
    | error reason => rfl
    | ok s => simp only [Except.map, String.empty_append]

/-- The empty text at the end adds nothing. -/
@[simp] theorem append_text_empty (a : Compilation) : a ++ text "" = a := by
  cases h : a.result with
  | error reason => exact append_of_error h _
  | ok s =>
      rw [append_of_ok h]
      ext1
      · exact List.append_nil _
      · simp only [text, Except.map, String.append_empty, h]

end Compilation

namespace Literal

/-- Floats in formulas: positional from `0.000001` up to twenty-one digits, without a point
for a whole number; zero has no sign, an exponent always has one, and of two equally close
shortest decimals the greater one is written. -/
def formulaFloats : Layout := ⟨.up, -6, 21, false, false, true⟩

-- Whole numbers have no point, and exponents are signed.
example : formulaFloats.render (.ofBits 0x403e000000000000 : Binary64) = "30" := by
  decide +kernel
example : formulaFloats.render (.ofBits 0x3eb0c6f7a0b5ed8d : Binary64) = "0.000001" := by
  decide +kernel
example : formulaFloats.render (.ofBits 0x3e7ad7f29abcaf48 : Binary64) = "1e-7" := by
  decide +kernel
example : formulaFloats.render (.ofBits 0x444b1ae4d6e2ef50 : Binary64) = "1e+21" := by
  decide +kernel

/-- Writes a literal. Text stands between single quotes as it is. -/
def compile : Literal → Compilation
  | .text value => ⟨if '\'' ∈ value.toList then [value] else [], .ok ("'" ++ value ++ "'")⟩
  | .integer value => .text (toString value.toInt)
  | .float value =>
    if value.isFinite then .text (formulaFloats.render value) else .malformed (.notFinite value)

end Literal

namespace Expr

mutual

/-- Writes an expression in the remote formula language. -/
def compile : Expr → Compilation
  | .field f => .text ("\x7b" ++ f.remoteName ++ "\x7d")
  | .literal value => value.compile
  | .formula text => .text text
  | .compare lhs op rhs =>
    .text "(" ++ compile lhs ++ .text (" " ++ op.symbol ++ " ") ++ compile rhs ++ .text ")"
  | .call fn args =>
    if fn.accepts args.length then
      .text (fn.name ++ "(") ++ compileAll "" args ++ .text ")"
    else .malformed (.argumentCount fn args.length)

/-- Writes arguments in a row, the first after `mark` and the others after a comma. -/
def compileAll (mark : String) : List Expr → Compilation
  | [] => .text ""
  | expr :: rest => .text mark ++ compile expr ++ compileAll ", " rest

end

end Expr

end RecordQuery
