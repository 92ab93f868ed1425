import Mathlib.Data.List.Forall2
import RecordQuery.Proofs.Formula.Preorder

/-!
# Equality of Expressions

Equality of expressions is not identity: fields are compared by their making, whatever else
they say, and floats as numbers, so that both zeros are equal and what is no number is not
even equal to itself. It is symmetric and transitive all the same, and reflexive away from
literals that are no numbers.

Formulas see nothing of the difference. Zero is written without its sign, so equal
expressions have one compilation as soon as fields of one making have one name.

## Main results

* `Expr.same_symm`, `Expr.same_trans` — equality is symmetric and transitive;
* `Expr.same_self_iff` — which expressions are equal to themselves;
* `Expr.compile_eq_of_same` — equal expressions have one compilation.
-/

namespace RecordQuery

/-! ### Numbers and literals -/

namespace Binary

variable {F : Format} {x y z : Binary F}

/-- Numbers are equal when they are one number, or both zero. -/
theorem same_iff : x.same y = true ↔
    x.isNaN = false ∧ (x = y ∨ x.isZero = true ∧ y.isZero = true) := by
  have hext : x = y ↔ x.negative = y.negative ∧ x.ordinal = y.ordinal := Binary.ext_iff
  simp only [same, isNaN, isZero, hext, Bool.and_eq_true, Bool.not_eq_true', Bool.or_eq_true,
    decide_eq_false_iff_not, beq_iff_eq]
  constructor
  · rintro ⟨⟨⟨hx, -⟩, hordinal⟩, hzero | hsign⟩
    · exact ⟨hx, .inr ⟨hzero, hordinal ▸ hzero⟩⟩
    · exact ⟨hx, .inl ⟨hsign, hordinal⟩⟩
  · rintro ⟨hx, ⟨hsign, hordinal⟩ | ⟨hzero, hzero'⟩⟩
    · exact ⟨⟨⟨hx, hordinal ▸ hx⟩, hordinal⟩, .inr hsign⟩
    · rw [hzero] at hx
      exact ⟨⟨⟨hzero ▸ hx, hzero' ▸ hx⟩, hzero.trans hzero'.symm⟩, .inl hzero⟩

/-- Zero is a number. -/
theorem isNaN_of_isZero (h : x.isZero = true) : x.isNaN = false := by
  rw [isZero, beq_iff_eq] at h
  rw [isNaN, h, decide_eq_false_iff_not]
  exact Nat.not_lt_zero _

/-- Zero is finite. -/
theorem isFinite_of_isZero (hF : 0 < F.infinity) (h : x.isZero = true) : x.isFinite = true := by
  rw [isZero, beq_iff_eq] at h
  rw [isFinite, h, decide_eq_true hF]

theorem same_self_iff : x.same x = true ↔ x.isNaN = false := by
  rw [same_iff]
  exact and_iff_left (.inl rfl)

theorem same_symm (h : x.same y = true) : y.same x = true := by
  obtain ⟨hx, rfl | ⟨hzero, hzero'⟩⟩ := same_iff.mp h
  · exact h
  · exact same_iff.mpr ⟨isNaN_of_isZero hzero', .inr ⟨hzero', hzero⟩⟩

theorem same_trans (h : x.same y = true) (h' : y.same z = true) : x.same z = true := by
  obtain ⟨hx, rfl | ⟨hzero, hzero'⟩⟩ := same_iff.mp h
  · exact h'
  · obtain ⟨-, rfl | ⟨-, hzero''⟩⟩ := same_iff.mp h'
    · exact h
    · exact same_iff.mpr ⟨hx, .inr ⟨hzero, hzero''⟩⟩

end Binary

namespace Literal

variable {a b c : Literal}

/-- Equal literals are one literal, or floats that are equal as numbers. -/
theorem same_iff : a.same b = true ↔
    (a = b ∧ ∀ x, a ≠ .float x) ∨ ∃ x y, a = .float x ∧ b = .float y ∧ x.same y = true := by
  cases a <;> cases b <;> simp [same]

theorem same_self_iff : a.same a = true ↔ ∀ x, a = .float x → x.isNaN = false := by
  cases a <;> simp [same, Binary.same_self_iff]

theorem same_symm (h : a.same b = true) : b.same a = true := by
  rcases same_iff.mp h with ⟨rfl, -⟩ | ⟨x, y, rfl, rfl, hxy⟩
  · exact h
  · exact Binary.same_symm hxy

theorem same_trans (h : a.same b = true) (h' : b.same c = true) : a.same c = true := by
  rcases same_iff.mp h with ⟨rfl, -⟩ | ⟨x, y, rfl, rfl, hxy⟩
  · exact h'
  · rcases same_iff.mp h' with ⟨rfl, -⟩ | ⟨y', z, hy, rfl, hyz⟩
    · exact h
    · cases hy
      exact Binary.same_trans hxy hyz

/-- Both zeros are written alike. -/
theorem render_eq_of_isZero {F : Format} (hF : 0 < F.infinity) {x y : Binary F}
    (hx : x.isZero = true) (hy : y.isZero = true) :
    formulaFloats.render x = formulaFloats.render y := by
  simp only [Layout.render, Binary.isFinite_of_isZero hF hx, Binary.isFinite_of_isZero hF hy,
    Layout.chars, hx, hy, formulaFloats, Bool.false_and, if_true]

/-- Equal literals are compiled alike. -/
theorem compile_eq_of_same (h : a.same b = true) : a.compile = b.compile := by
  rcases same_iff.mp h with ⟨rfl, -⟩ | ⟨x, y, rfl, rfl, hxy⟩
  · rfl
  · obtain ⟨-, rfl | ⟨hx, hy⟩⟩ := Binary.same_iff.mp hxy
    · rfl
    · have hF : 0 < Format.double.infinity := by decide
      rw [compile, compile, if_pos (Binary.isFinite_of_isZero hF hx),
        if_pos (Binary.isFinite_of_isZero hF hy), render_eq_of_isZero hF hx hy]

end Literal

namespace Expr

/-! ### Equality constructor by constructor -/

/-- Expressions in rows are equal one by one. -/
theorem sameAll_iff {as bs : List Expr} :
    sameAll as bs = true ↔ List.Forall₂ (fun a b => a.same b = true) as bs := by
  induction as generalizing bs with
  | nil => cases bs <;> simp [sameAll]
  | cons a as ih => cases bs <;> simp [sameAll, ih]

variable {a b c : Expr}

theorem same_field_iff {f : Field} :
    (field f).same b = true ↔ ∃ g, b = field g ∧ f.stamp = g.stamp := by
  cases b with
  | field g => simp [same_field, Field.same]
  | _ => simp [same]

theorem same_literal_iff {value : Literal} :
    (literal value).same b = true ↔ ∃ value', b = literal value' ∧ value.same value' = true := by
  cases b <;> simp [same]

theorem same_formula_iff {text : String} : (formula text).same b = true ↔ b = formula text := by
  cases b with
  | formula text' =>
      simp only [same, beq_iff_eq, formula.injEq]
      exact eq_comm
  | _ => simp [same]

theorem same_compare_iff {lhs rhs : Expr} {op : Comparison} :
    (compare lhs op rhs).same b = true ↔
      ∃ lhs' rhs', b = compare lhs' op rhs' ∧ lhs.same lhs' = true ∧ rhs.same rhs' = true := by
  cases b with
  | compare lhs' op' rhs' =>
      simp only [same, Bool.and_eq_true, beq_iff_eq, compare.injEq]
      constructor
      · rintro ⟨⟨hlhs, rfl⟩, hrhs⟩
        exact ⟨lhs', rhs', ⟨rfl, rfl, rfl⟩, hlhs, hrhs⟩
      · rintro ⟨_, _, ⟨rfl, rfl, rfl⟩, hlhs, hrhs⟩
        exact ⟨⟨hlhs, rfl⟩, hrhs⟩
  | _ => simp [same]

theorem same_call_iff {fn : Function} {args : List Expr} :
    (call fn args).same b = true ↔
      ∃ args', b = call fn args' ∧ List.Forall₂ (fun a b => a.same b = true) args args' := by
  cases b with
  | call fn' args' =>
      simp only [same, Bool.and_eq_true, beq_iff_eq, sameAll_iff, call.injEq]
      constructor
      · rintro ⟨rfl, hargs⟩
        exact ⟨args', ⟨rfl, rfl⟩, hargs⟩
      · rintro ⟨_, ⟨rfl, rfl⟩, hargs⟩
        exact ⟨rfl, hargs⟩
  | _ => simp [same]

/-! ### Symmetry, transitivity and reflexivity -/

/-- **Equality is symmetric.** -/
theorem same_symm (h : a.same b = true) : b.same a = true := by
  induction a generalizing b with
  | field f =>
      obtain ⟨g, rfl, hstamp⟩ := same_field_iff.mp h
      exact same_field_iff.mpr ⟨f, rfl, hstamp.symm⟩
  | literal value =>
      obtain ⟨value', rfl, hvalue⟩ := same_literal_iff.mp h
      exact same_literal_iff.mpr ⟨value, rfl, Literal.same_symm hvalue⟩
  | formula text =>
      obtain rfl := same_formula_iff.mp h
      exact h
  | compare lhs op rhs ihl ihr =>
      obtain ⟨lhs', rhs', rfl, hlhs, hrhs⟩ := same_compare_iff.mp h
      exact same_compare_iff.mpr ⟨lhs, rhs, rfl, ihl hlhs, ihr hrhs⟩
  | call fn args ih =>
      obtain ⟨args', rfl, hargs⟩ := same_call_iff.mp h
      have hmem : List.Forall₂ (fun arg arg' => arg ∈ args ∧ arg.same arg' = true) args args' :=
        (List.forall₂_and_left args args').mpr ⟨fun _ hmem => hmem, hargs⟩
      exact same_call_iff.mpr ⟨args, rfl, (hmem.imp fun arg _ h => ih arg h.1 h.2).flip⟩

/-- Rows that are equal one by one to a third row are equal one by one, if their items are. -/
theorem forall₂_trans {as bs cs : List Expr}
    (ih : ∀ a ∈ as, ∀ b c : Expr, a.same b = true → b.same c = true → a.same c = true)
    (h : List.Forall₂ (fun a b => a.same b = true) as bs)
    (h' : List.Forall₂ (fun b c => b.same c = true) bs cs) :
    List.Forall₂ (fun a c => a.same c = true) as cs := by
  induction h generalizing cs with
  | nil =>
      cases h'
      exact .nil
  | cons hab _ ihs =>
      cases h' with
      | cons hbc hrest =>
          exact .cons (ih _ List.mem_cons_self _ _ hab hbc)
            (ihs (fun a ha => ih a (List.mem_cons_of_mem _ ha)) hrest)

/-- **Equality is transitive.** -/
theorem same_trans (h : a.same b = true) (h' : b.same c = true) : a.same c = true := by
  induction a generalizing b c with
  | field f =>
      obtain ⟨g, rfl, hfg⟩ := same_field_iff.mp h
      obtain ⟨k, rfl, hgk⟩ := same_field_iff.mp h'
      exact same_field_iff.mpr ⟨k, rfl, hfg.trans hgk⟩
  | literal value =>
      obtain ⟨value', rfl, hvalue⟩ := same_literal_iff.mp h
      obtain ⟨value'', rfl, hvalue'⟩ := same_literal_iff.mp h'
      exact same_literal_iff.mpr ⟨value'', rfl, Literal.same_trans hvalue hvalue'⟩
  | formula text =>
      obtain rfl := same_formula_iff.mp h
      exact h'
  | compare lhs op rhs ihl ihr =>
      obtain ⟨lhs', rhs', rfl, hlhs, hrhs⟩ := same_compare_iff.mp h
      obtain ⟨lhs'', rhs'', rfl, hlhs', hrhs'⟩ := same_compare_iff.mp h'
      exact same_compare_iff.mpr ⟨lhs'', rhs'', rfl, ihl hlhs hlhs', ihr hrhs hrhs'⟩
  | call fn args ih =>
      obtain ⟨args', rfl, hargs⟩ := same_call_iff.mp h
      obtain ⟨args'', rfl, hargs'⟩ := same_call_iff.mp h'
      exact same_call_iff.mpr
        ⟨args'', rfl, forall₂_trans (fun arg harg _ _ => ih arg harg) hargs hargs'⟩

/-- **An expression is equal to itself** exactly when all its float literals are numbers. -/
theorem same_self_iff (e : Expr) :
    e.same e = true ↔ ∀ value, literal (.float value) ∈ e.nodes → value.isNaN = false := by
  induction e with
  | field f => simp [same_field_iff, nodes]
  | literal value =>
      simp only [same_literal_iff, nodes, List.mem_singleton, literal.injEq]
      rw [exists_eq_left', Literal.same_self_iff]
      exact forall_congr' fun x => by rw [eq_comm]
  | formula text => simp [same_formula_iff, nodes]
  | compare lhs op rhs ihl ihr =>
      rw [same, Bool.and_eq_true, Bool.and_eq_true, ihl, ihr]
      simp only [beq_self_eq_true, and_true, nodes, List.mem_cons, List.mem_append, reduceCtorEq,
        false_or, or_imp, forall_and]
  | call fn args ih =>
      rw [same, Bool.and_eq_true, sameAll_iff, List.forall₂_same]
      simp only [beq_self_eq_true, true_and, nodes, List.mem_cons, reduceCtorEq, false_or,
        mem_nodesAll]
      constructor
      · rintro h value ⟨arg, harg, hvalue⟩
        exact (ih arg harg).mp (h arg harg) value hvalue
      · intro h arg harg
        exact (ih arg harg).mpr fun value hvalue => h value ⟨arg, harg, hvalue⟩

/-! ### Fields and compilations -/

/-- The field that a node refers to. -/
def field? : Expr → Option Field
  | .field f => some f
  | _ => none

/-- The fields of an expression, in preorder. -/
def fields (e : Expr) : List Field := e.nodes.filterMap field?

theorem mem_fields {f : Field} : f ∈ a.fields ↔ field f ∈ a.nodes := by
  rw [fields, List.mem_filterMap]
  constructor
  · rintro ⟨node, hnode, hf⟩
    cases node <;> cases hf
    exact hnode
  · exact fun h => ⟨field f, h, rfl⟩

/-- The fields of a node are fields of the expression. -/
theorem fields_subset_of_mem_nodes (h : b ∈ a.nodes) : b.fields ⊆ a.fields :=
  List.filterMap_subset field? (nodes_subset h)

theorem fields_compare (lhs : Expr) (op : Comparison) (rhs : Expr) :
    (compare lhs op rhs).fields = lhs.fields ++ rhs.fields := by
  rw [fields, nodes, List.filterMap_cons_none rfl, List.filterMap_append, fields, fields]

theorem mem_fields_call {fn : Function} {args : List Expr} {f : Field} :
    f ∈ (call fn args).fields ↔ ∃ arg ∈ args, f ∈ arg.fields := by
  simp only [mem_fields, nodes, List.mem_cons, reduceCtorEq, false_or, mem_nodesAll]

/-- Whether fields of one making have one name, wherever in two expressions they stand. -/
def Agree (a b : Expr) : Prop :=
  ∀ f ∈ a.fields, ∀ g ∈ b.fields, f.stamp = g.stamp → f.remoteName = g.remoteName

theorem Agree.mono {a' b' : Expr} (h : a.Agree b) (ha : a'.fields ⊆ a.fields)
    (hb : b'.fields ⊆ b.fields) : a'.Agree b' :=
  fun f hf g hg => h f (ha hf) g (hb hg)

/-- Arguments that are compiled alike one by one are compiled alike in a row. -/
theorem compileAll_eq_of_forall₂ {as bs : List Expr}
    (h : List.Forall₂ (fun a b => a.compile = b.compile) as bs) (mark : String) :
    compileAll mark as = compileAll mark bs := by
  induction h generalizing mark with
  | nil => rfl
  | cons hab _ ih => rw [compileAll, compileAll, hab, ih]

/-- **Equal expressions have one compilation**, once fields of one making have one name. -/
theorem compile_eq_of_same (hagree : a.Agree b) (h : a.same b = true) : a.compile = b.compile := by
  induction a generalizing b with
  | field f =>
      obtain ⟨g, rfl, hstamp⟩ := same_field_iff.mp h
      have hname := hagree f (mem_fields.mpr (self_mem_nodes _)) g
        (mem_fields.mpr (self_mem_nodes _)) hstamp
      rw [compile, compile, hname]
  | literal value =>
      obtain ⟨value', rfl, hvalue⟩ := same_literal_iff.mp h
      exact Literal.compile_eq_of_same hvalue
  | formula text =>
      obtain rfl := same_formula_iff.mp h
      rfl
  | compare lhs op rhs ihl ihr =>
      obtain ⟨lhs', rhs', rfl, hlhs, hrhs⟩ := same_compare_iff.mp h
      have hleft : lhs.Agree lhs' := by
        refine hagree.mono ?_ ?_ <;> rw [fields_compare] <;> exact List.subset_append_left _ _
      have hright : rhs.Agree rhs' := by
        refine hagree.mono ?_ ?_ <;> rw [fields_compare] <;> exact List.subset_append_right _ _
      rw [compile, compile, ihl hleft hlhs, ihr hright hrhs]
  | call fn args ih =>
      obtain ⟨args', rfl, hargs⟩ := same_call_iff.mp h
      have hcompiled : List.Forall₂ (fun a b => a.compile = b.compile) args args' := by
        refine List.forall₂_iff_get.mpr ⟨hargs.length_eq, fun i hi hi' => ?_⟩
        refine ih _ (List.get_mem args ⟨i, hi⟩) (hagree.mono ?_ ?_) (hargs.get hi hi')
        · exact fun f hf => mem_fields_call.mpr ⟨_, List.get_mem args ⟨i, hi⟩, hf⟩
        · exact fun f hf => mem_fields_call.mpr ⟨_, List.get_mem args' ⟨i, hi'⟩, hf⟩
      rw [compile, compile, hargs.length_eq, compileAll_eq_of_forall₂ hcompiled]

end Expr

end RecordQuery
