import RecordQuery.Proofs.Formula.Preorder

/-!
# Compiling in a Context

A `Context` is an expression with one hole, at an operand or at an argument and at any
depth. What is written before the hole and what is written after it does not depend on what
fills the hole, so compiling a filled context puts three compilations in a row
(`Context.compile_fill`): the *opening* of the context, the filling and the *closing*.

## Main results

* `Context.compile_fill_formula` — an expression may be compiled first and filled in as the
  text that came of it: the outcome stays the same, and its warnings stay together.
-/

namespace RecordQuery

namespace Compilation

/-- What stands between two written pieces is written between them. -/
theorem append_append_of_ok {a m : Compilation} {s t : String} (ha : a.result = .ok s)
    (hm : m.result = .ok t) (b : Compilation) :
    a ++ m ++ b = ⟨a.quotes ++ m.quotes ++ b.quotes, b.result.map (s ++ t ++ ·)⟩ := by
  have ham : a ++ m = ⟨a.quotes ++ m.quotes, .ok (s ++ t)⟩ := by
    rw [append_of_ok ha, hm]
    rfl
  rw [ham, append_of_ok rfl]

/-- Whether a compilation reports the events of another one and `added`, all of these in a
row. -/
def ReportsMore (whole : Compilation) (added : List Event) (part : Compilation) : Prop :=
  ∃ before after, part.events = before ++ after ∧ whole.events = before ++ added ++ after

end Compilation

namespace Expr

/-- An expression with one hole. -/
inductive Context where
  /-- Nothing but the hole. -/
  | hole
  /-- The hole is in the left operand. -/
  | left (inner : Context) (op : Comparison) (rhs : Expr)
  /-- The hole is in the right operand. -/
  | right (lhs : Expr) (op : Comparison) (inner : Context)
  /-- The hole is in an argument, between others. -/
  | argument (fn : Function) (before : List Expr) (inner : Context) (after : List Expr)

namespace Context

/-- Fills the hole. -/
def fill : Context → Expr → Expr
  | .hole, e => e
  | .left inner op rhs, e => .compare (inner.fill e) op rhs
  | .right lhs op inner, e => .compare lhs op (inner.fill e)
  | .argument fn before inner after, e => .call fn (before ++ inner.fill e :: after)

/-- What comes of writing a context up to its hole. -/
def opening : Context → Compilation
  | .hole => .text ""
  | .left inner _ _ => .text "(" ++ inner.opening
  | .right lhs op inner =>
    .text "(" ++ lhs.compile ++ .text (" " ++ op.symbol ++ " ") ++ inner.opening
  | .argument fn before inner after =>
    if fn.accepts (before.length + 1 + after.length) then
      .text (fn.name ++ "(") ++ compileAll "" before ++
        .text (if before.isEmpty then "" else ", ") ++ inner.opening
    else .malformed (.argumentCount fn (before.length + 1 + after.length))

/-- What comes of writing a context after its hole. -/
def closing : Context → Compilation
  | .hole => .text ""
  | .left inner op rhs =>
    inner.closing ++ .text (" " ++ op.symbol ++ " ") ++ rhs.compile ++ .text ")"
  | .right _ _ inner => inner.closing ++ .text ")"
  | .argument _ _ inner after => inner.closing ++ compileAll ", " after ++ .text ")"

end Context

/-- Arguments around one of them are written around it. -/
theorem compileAll_append_cons (start : String) (before : List Expr) (e : Expr)
    (after : List Expr) :
    compileAll start (before ++ e :: after) =
      compileAll start before ++ .text (if before.isEmpty then start else ", ") ++ e.compile ++
        compileAll ", " after := by
  induction before generalizing start with
  | nil => rfl
  | cons first rest ih =>
      have hmark : (if rest.isEmpty then ", " else ", ") = ", " := ite_self _
      rw [List.cons_append, compileAll, ih, hmark, compileAll]
      simp only [Compilation.append_assoc]
      rfl

namespace Context

/-- **A filled context** is its opening, the filling and its closing in a row. -/
theorem compile_fill (context : Context) (e : Expr) :
    (context.fill e).compile = context.opening ++ e.compile ++ context.closing := by
  induction context with
  | hole =>
      rw [fill, opening, closing, Compilation.text_empty_append, Compilation.append_text_empty]
  | left inner op rhs ih =>
      rw [fill, compile, ih, opening, closing]
      simp only [Compilation.append_assoc]
  | right lhs op inner ih =>
      rw [fill, compile, ih, opening, closing]
      simp only [Compilation.append_assoc]
  | argument fn before inner after ih =>
      have hlength : (before ++ inner.fill e :: after).length =
          before.length + 1 + after.length := by
        rw [List.length_append, List.length_cons]
        omega
      rw [fill, compile, hlength, opening, closing]
      by_cases h : fn.accepts (before.length + 1 + after.length) = true
      · rw [if_pos h, if_pos h, compileAll_append_cons, ih]
        simp only [Compilation.append_assoc]
      · rw [if_neg h, if_neg h, Compilation.append_assoc,
          Compilation.append_of_error rfl]

/-- **Compiling is compositional.** Let an expression compile to a text. Filled into a
context it gives the same result as the text filled in as a formula: the same text or the
same defect. Its warnings are added to those of the other in one block; only when the
filled context ends with a defect, that defect may stand before the hole, and then nothing
of the filling is looked at. An expression that does not compile does not compile in any
context. -/
theorem compile_fill_formula (context : Context) (e : Expr) :
    (∀ text, e.compile.result = .ok text →
      let whole := (context.fill e).compile
      let inlined := (context.fill (.formula text)).compile
      whole.result = inlined.result ∧
        ((∃ written, whole.result = .ok written) →
          whole.ReportsMore e.compile.events inlined) ∧
        ((∃ reason, whole.result = .error reason) →
          whole.ReportsMore e.compile.events inlined ∨
            ∀ other, (context.fill other).compile = inlined)) ∧
      ((∃ reason, e.compile.result = .error reason) →
        ∃ reason, (context.fill e).compile.result = .error reason) := by
  simp only [compile_fill]
  cases hopening : context.opening.result with
  | error reason =>
      -- The defect stands before the hole, whatever fills it.
      have hend : ∀ other : Expr,
          context.opening ++ other.compile ++ context.closing = context.opening := by
        intro other
        rw [Compilation.append_of_error hopening, Compilation.append_of_error hopening]
      simp only [hend, hopening]
      refine ⟨fun text htext => ⟨trivial, ?_, fun _ => Or.inr fun _ => trivial⟩,
        fun _ => ⟨reason, rfl⟩⟩
      rintro ⟨written, hwritten⟩
      cases hwritten
  | ok start =>
      refine ⟨?_, ?_⟩
      · intro text htext
        have hwhole := Compilation.append_append_of_ok hopening htext context.closing
        have hinlined := Compilation.append_append_of_ok hopening
          (show (Expr.formula text).compile.result = .ok text from rfl) context.closing
        have hmore : (context.opening ++ e.compile ++ context.closing).ReportsMore
            e.compile.events
            (context.opening ++ (Expr.formula text).compile ++ context.closing) := by
          refine ⟨context.opening.events, context.closing.events, ?_, ?_⟩
          · rw [hinlined]
            simp [Compilation.events, compile, Compilation.text]
          · rw [hwhole]
            simp [Compilation.events]
        refine ⟨?_, fun _ => hmore, fun _ => Or.inl hmore⟩
        rw [hwhole, hinlined]
      · rintro ⟨reason, hreason⟩
        refine ⟨reason, ?_⟩
        rw [Compilation.append_assoc, Compilation.append_of_ok hopening,
          Compilation.append_of_error hreason, hreason]
        rfl

/-- A quote is reported from an argument within a comparison. -/
theorem compile_fill_formula_quote :
    let context : Context := .right (.field ⟨0, .text, "Name"⟩) .eq (.argument .lower [] .hole [])
    let e : Expr := .literal (.text "it's")
    let inlined := (context.fill (.formula "'it's'")).compile
    e.compile.result = .ok "'it's'" ∧
      (context.fill e).compile.result = inlined.result ∧
      (context.fill e).compile.ReportsMore [.quoteInLiteral "it's"] inlined := by
  intro context e inlined
  have hcompile : e.compile.result = .ok "'it's'" := by decide +kernel
  obtain ⟨hresult, hmore, -⟩ := (compile_fill_formula context e).1 "'it's'" hcompile
  exact ⟨hcompile, hresult, hmore ⟨_, rfl⟩⟩

end Context

end Expr

end RecordQuery
