import RecordQuery.Proofs.Formula.Preorder
import RecordQuery.Proofs.Formula.SingleLiteral

/-!
# Expressions Made with Helpers

An expression is *composed* if it is made with helpers and comparisons alone, out of fields,
texts, integers, finite floats of both formats, formulas, and what composed expressions have been
compiled to. Three things must fit together for it to compile: the numbers of operands that
helpers take, the numbers of arguments that functions take, and the check of every call. And a
finite 32-bit number must not become infinite when it is held as a 64-bit one.

## Main results

* `Binary.isFinite_widen` — a finite 32-bit number is held as a finite 64-bit one;
* `Expr.composed_iff_sound` — composed are exactly the expressions of which no node has a defect;
* `Expr.compile_composed` — composed expressions compile.
-/

namespace RecordQuery

/-- **A finite 32-bit number is held as a finite 64-bit one**: the decimal in between is not
rounded up to infinity. -/
theorem Binary.isFinite_widen {x : Binary32} (h : x.isFinite = true) : x.widen.isFinite = true := by
  have hfinite : x.ordinal < Format.single.infinity := of_decide_eq_true h
  rcases Nat.eq_zero_or_pos x.ordinal with hzero | hpos
  · rw [(Literal.widen_special x).1 (beq_iff_eq.mpr hzero)]
    rfl
  · obtain ⟨-, -, -, hheld, -⟩ := Literal.widen_of_pos hpos hfinite
    exact decide_eq_true hheld

/-! ### What helpers build -/

namespace Helper

variable {helper : Helper} {operands : List Expr} {e : Expr}

/-- What a helper builds has no defect of its own. -/
theorem defect?_of_build? (h : helper.build? operands = some e) : e.defect? = none := by
  cases helper with
  | comparison op =>
      obtain ⟨lhs, rhs, -, rfl⟩ := build?_comparison_eq_some_iff.mp h
      rfl
  | function fn =>
      obtain ⟨haccepts, rfl⟩ := build?_function_eq_some_iff.mp h
      rw [Expr.defect?, if_pos haccepts]

/-- The nodes of what a helper builds are the new one and those of the operands. -/
theorem eq_or_mem_of_build? (h : helper.build? operands = some e) {node : Expr}
    (hnode : node ∈ e.nodes) : node = e ∨ ∃ operand ∈ operands, node ∈ operand.nodes := by
  cases helper with
  | comparison op =>
      obtain ⟨lhs, rhs, rfl, rfl⟩ := build?_comparison_eq_some_iff.mp h
      refine (List.mem_cons.mp hnode).imp_right fun hnode => ?_
      rcases List.mem_append.mp hnode with hnode | hnode
      · exact ⟨lhs, List.mem_cons_self, hnode⟩
      · exact ⟨rhs, List.mem_cons_of_mem _ List.mem_cons_self, hnode⟩
  | function fn =>
      obtain ⟨-, rfl⟩ := build?_function_eq_some_iff.mp h
      exact (List.mem_cons.mp hnode).imp_right Expr.mem_nodesAll.mp

end Helper

namespace Expr

/-! ### Composed expressions -/

/-- An expression that is made with helpers and comparisons alone. -/
inductive Composed : Expr → Prop where
  | field (f : Field) : Composed (.field f)
  | text (value : String) : Composed (.literal (.text value))
  | integer (value : Int64) : Composed (.literal (.integer value))
  /-- A finite float of the 64-bit format. -/
  | double {value : Binary64} (hfinite : value.isFinite = true) :
      Composed (.literal (.float value))
  /-- A finite float of the 32-bit format. -/
  | single {value : Binary32} (hfinite : value.isFinite = true) :
      Composed (.literal (.ofSingle value))
  | formula (text : String) : Composed (.formula text)
  /-- What a composed expression has been compiled to. -/
  | compiled {part : Expr} {text : String} (hpart : Composed part)
      (htext : part.compile.result = .ok text) : Composed (.formula text)
  /-- A comparison that is made without a helper. -/
  | compare {lhs rhs : Expr} (op : Comparison) (hlhs : Composed lhs) (hrhs : Composed rhs) :
      Composed (.compare lhs op rhs)
  /-- What a helper builds. -/
  | helper {helper : Helper} {operands : List Expr} {built : Expr}
      (hall : ∀ operand ∈ operands, Composed operand)
      (hbuild : helper.build? operands = some built) : Composed built

/-- A call is composed if its arguments are and the function takes so many: there is a helper for
every function. -/
theorem Composed.call {fn : Function} {args : List Expr} (haccepts : fn.accepts args.length = true)
    (hall : ∀ arg ∈ args, arg.Composed) : (Expr.call fn args).Composed :=
  .helper hall (Helper.build?_function_eq_some_iff.mpr ⟨haccepts, rfl⟩)

/-- **No node of a composed expression has a defect.** -/
theorem Composed.defect?_eq_none {e : Expr} (h : e.Composed) :
    ∀ node ∈ e.nodes, node.defect? = none := by
  -- A leaf is its only node. Of what is put together, the parts are known to be sound.
  induction h with
  | field f => exact List.forall_mem_singleton.mpr rfl
  | text value => exact List.forall_mem_singleton.mpr rfl
  | integer value => exact List.forall_mem_singleton.mpr rfl
  | double hfinite =>
      refine List.forall_mem_singleton.mpr ?_
      rw [defect?, if_pos hfinite]
  | single hfinite =>
      refine List.forall_mem_singleton.mpr ?_
      rw [Literal.ofSingle, defect?, if_pos (Binary.isFinite_widen hfinite)]
  | formula text => exact List.forall_mem_singleton.mpr rfl
  | compiled hpart htext ih => exact List.forall_mem_singleton.mpr rfl
  | compare op hlhs hrhs ihl ihr =>
      exact List.forall_mem_cons.mpr ⟨rfl, List.forall_mem_append.mpr ⟨ihl, ihr⟩⟩
  | helper hall hbuild ih =>
      intro node hnode
      rcases Helper.eq_or_mem_of_build? hbuild hnode with rfl | ⟨operand, hoperand, hnode⟩
      · exact Helper.defect?_of_build? hbuild
      · exact ih operand hoperand node hnode

/-- **Sound expressions are composed**: whatever has no node with a defect can be made with
helpers. -/
theorem Composed.of_sound {e : Expr} (h : ∀ node ∈ e.nodes, node.defect? = none) :
    e.Composed := by
  induction e with
  | field f => exact .field f
  | formula text => exact .formula text
  | literal value =>
      have hvalue := h _ (self_mem_nodes _)
      cases value with
      | text value => exact .text value
      | integer value => exact .integer value
      | float value =>
          refine .double ?_
          by_contra hfinite
          rw [defect?, if_neg hfinite] at hvalue
          cases hvalue
  | compare lhs op rhs ihl ihr =>
      rw [nodes, List.forall_mem_cons, List.forall_mem_append] at h
      exact .compare op (ihl h.2.1) (ihr h.2.2)
  | call fn args ih =>
      rw [nodes, List.forall_mem_cons] at h
      refine .call ?_ fun arg harg =>
        ih arg harg fun node hnode => h.2 node (mem_nodesAll.mpr ⟨arg, harg, hnode⟩)
      by_contra haccepts
      have hcall := h.1
      rw [defect?, if_neg haccepts] at hcall
      cases hcall

/-- An expression is composed exactly if none of its nodes has a defect. -/
theorem composed_iff_sound {e : Expr} : e.Composed ↔ ∀ node ∈ e.nodes, node.defect? = none :=
  ⟨Composed.defect?_eq_none, .of_sound⟩

/-- An expression compiles exactly if none of its nodes has a defect. -/
theorem exists_compile_iff {e : Expr} :
    (∃ text, e.compile.result = .ok text) ↔ ∀ node ∈ e.nodes, node.defect? = none := by
  rw [compile_eq, Compilation.visit, ← List.findSome?_eq_none_iff]
  cases e.nodes.findSome? defect? <;> simp

/-- **Composed expressions compile**: their formula is written to the end, and of none of their
nodes could it be said that it has a wrong number of arguments or is no finite number. They are
also all the expressions that compile. -/
theorem compile_composed (e : Expr) :
    (e.Composed ↔ ∃ text, e.compile.result = .ok text) ∧
      (e.Composed → ∀ node ∈ e.nodes, node.complaint? = none) := by
  refine ⟨composed_iff_sound.trans exists_compile_iff.symm, fun h node hnode => ?_⟩
  exact (complaint?_eq_none_iff node).mpr (h.defect?_eq_none node hnode)

/-- A row of no operands, a compiled part, a quote, and the greatest finite 32-bit number. -/
theorem compile_composed_greatest_single :
    let greatest : Expr := .literal (.ofSingle (.ofBits 0x7f7fffff))
    let older : Expr := .compare (.field ⟨0, .number, "Age"⟩) .gt greatest
    let negated : Expr := .call .not [.formula "(\x7bAge\x7d > 3.4028235e+38)"]
    let choice : Expr := .call .ifThenElse [older, .literal (.text "it's"), .call .blank []]
    let e : Expr := .call .and [.call .or [], negated, choice]
    e.Composed ∧ (∃ text, e.compile.result = .ok text) ∧
      ∀ node ∈ e.nodes, node.complaint? = none := by
  intro greatest older negated choice e
  have holder : older.Composed := .compare .gt (.field _) (.single (by decide +kernel))
  have htext : older.compile.result = .ok "(\x7bAge\x7d > 3.4028235e+38)" := by decide +kernel
  have hnegated : negated.Composed := .call rfl (by simpa using .compiled holder htext)
  have hchoice : choice.Composed :=
    .call rfl (by simpa using ⟨holder, .text "it's", .call rfl (by simp)⟩)
  have hall : e.Composed := .call rfl (by simpa using ⟨.call rfl (by simp), hnegated, hchoice⟩)
  exact ⟨hall, (compile_composed e).1.mp hall, (compile_composed e).2 hall⟩

end Expr

end RecordQuery
