import Mathlib.Data.List.TakeWhile
import RecordQuery.Event

/-!
# Compiling Follows the Preorder of the Nodes

An expression has its *nodes* in preorder: a node before its operands, operands and
arguments from left to right. A node may have a *defect* of its own, a number of arguments
that its function does not take or a float that is not finite, and a text literal may hold a
*quote*. `Expr.written` is the formula text of an expression, whatever its defects.

Compiling visits the nodes in preorder and does nothing else: it stops at the first node
with a defect, reports the quotes of the nodes before it, and has written `Expr.written`
when there is no such node.

## Main results

* `Expr.compile_eq` — the compilation of an expression is the visit of its nodes;
* `Expr.compile_preorder` — when compiling succeeds, with which defect it ends otherwise,
  what is said then, and which warnings are emitted in both cases.
-/

namespace RecordQuery

/-! ### Nodes -/

/-- A literal as it stands in a formula. -/
def Literal.written : Literal → String
  | .text value => "'" ++ value ++ "'"
  | .integer value => toString value.toInt
  | .float value => formulaFloats.render value

namespace Expr

/-- **Induction over expressions.** A call is reached from all its arguments. -/
@[elab_as_elim, induction_eliminator]
theorem induction {motive : Expr → Prop} (field : ∀ f, motive (.field f))
    (literal : ∀ value, motive (.literal value)) (formula : ∀ text, motive (.formula text))
    (compare : ∀ lhs op rhs, motive lhs → motive rhs → motive (.compare lhs op rhs))
    (call : ∀ fn args, (∀ arg ∈ args, motive arg) → motive (.call fn args)) :
    ∀ e, motive e :=
  @Expr.rec motive (fun args => ∀ arg ∈ args, motive arg) field literal formula
    (fun lhs op rhs ihl ihr => compare lhs op rhs ihl ihr) (fun fn args ih => call fn args ih)
    (by simp) (fun arg args ih ihs => by simpa using ⟨ih, ihs⟩)

mutual

/-- The nodes of an expression in preorder. -/
def nodes : Expr → List Expr
  | .compare lhs op rhs => .compare lhs op rhs :: (nodes lhs ++ nodes rhs)
  | .call fn args => .call fn args :: nodesAll args
  | .field f => [.field f]
  | .literal value => [.literal value]
  | .formula text => [.formula text]

/-- The nodes of arguments, from left to right. -/
def nodesAll : List Expr → List Expr
  | [] => []
  | expr :: rest => nodes expr ++ nodesAll rest

end

/-- What is wrong with a node by itself. -/
def defect? : Expr → Option Malformed
  | .call fn args =>
    if fn.accepts args.length then none else some (.argumentCount fn args.length)
  | .literal (.float value) => if value.isFinite then none else some (.notFinite value)
  | _ => none

/-- What is said about a node with a defect: the name of the function, the number of
arguments and the number it takes, or the value that is not finite. -/
def complaint? : Expr → Option String
  | .call fn args =>
    match fn.arity with
    | .exactly count =>
      if args.length = count then none
      else some (fn.name ++ " does not accept " ++ toString args.length ++
        " argument(s); arity=Exactly(" ++ toString count ++ ")")
    | .variadic => none
  | .literal (.float value) =>
    if value.isNaN then some "number literal must be finite; value=NaN"
    else if value.isInfinite then
      some ("number literal must be finite; value=" ++ if value.negative then "-inf" else "inf")
    else none
  | _ => none

/-- The text of a text literal that holds a single quote. -/
def quote? : Expr → Option String
  | .literal (.text value) => if '\'' ∈ value.toList then some value else none
  | _ => none

mutual

/-- The formula of an expression, whatever its defects. -/
def written : Expr → String
  | .field f => "\x7b" ++ f.remoteName ++ "\x7d"
  | .literal value => value.written
  | .formula text => text
  | .compare lhs op rhs => "(" ++ written lhs ++ (" " ++ op.symbol ++ " ") ++ written rhs ++ ")"
  | .call fn args => fn.name ++ "(" ++ writtenAll "" args ++ ")"

/-- Arguments in a row, the first after `mark` and the others after a comma. -/
def writtenAll (mark : String) : List Expr → String
  | [] => ""
  | expr :: rest => mark ++ written expr ++ writtenAll ", " rest

end

end Expr

namespace Expr

/-- An expression is the first of its nodes. -/
theorem self_mem_nodes (e : Expr) : e ∈ e.nodes := by
  cases e <;> exact List.mem_cons_self

/-- The nodes of arguments are those of each argument. -/
theorem mem_nodesAll {args : List Expr} {node : Expr} :
    node ∈ nodesAll args ↔ ∃ arg ∈ args, node ∈ arg.nodes := by
  induction args with
  | nil => simp [nodesAll]
  | cons arg rest ih => simp [nodesAll, ih]

/-- The nodes of a node are nodes of the expression. -/
theorem nodes_subset {e node : Expr} (h : node ∈ e.nodes) : node.nodes ⊆ e.nodes := by
  induction e with
  | field f | literal value | formula text => exact List.mem_singleton.mp h ▸ List.Subset.refl _
  | compare lhs op rhs ihl ihr =>
      rcases List.mem_cons.mp h with rfl | h
      · exact List.Subset.refl _
      · rcases List.mem_append.mp h with h | h
        · exact fun n hn => List.mem_cons_of_mem _ (List.mem_append_left _ (ihl h hn))
        · exact fun n hn => List.mem_cons_of_mem _ (List.mem_append_right _ (ihr h hn))
  | call fn args ih =>
      rcases List.mem_cons.mp h with rfl | h
      · exact List.Subset.refl _
      · obtain ⟨arg, harg, h⟩ := mem_nodesAll.mp h
        exact fun n hn => List.mem_cons_of_mem _ (mem_nodesAll.mpr ⟨arg, harg, ih arg harg h hn⟩)

/-- A complaint is the message of a defect. -/
theorem map_message_defect? (node : Expr) :
    node.defect?.map Malformed.message = node.complaint? := by
  cases node with
  | field f => rfl
  | formula text => rfl
  | compare lhs op rhs => rfl
  | call fn args =>
      cases harity : fn.arity with
      | variadic =>
          simp only [defect?, complaint?, Function.accepts, harity, Arity.accepts, if_true,
            Option.map_none]
      | exactly count =>
          simp only [defect?, complaint?, Function.accepts, harity, Arity.accepts]
          by_cases h : args.length = count
          · rw [if_pos h, if_pos (beq_iff_eq.mpr h.symm), Option.map_none]
          · rw [if_neg h, if_neg (fun e => h (beq_iff_eq.mp e).symm), Option.map_some]
            have hmark : " argument(s); arity=Exactly(" = " argument(s); arity=" ++ "Exactly(" :=
              rfl
            simp only [Malformed.message_argumentCount, harity, Arity.outline, hmark,
              String.append_assoc]
  | literal value =>
      cases value with
      | text value => rfl
      | integer value => rfl
      | float value =>
          rw [defect?, complaint?]
          by_cases hf : value.isFinite = true
          · obtain ⟨hn, hi⟩ := (Binary.isFinite_iff value).mp hf
            rw [if_pos hf, hn, hi]
            rfl
          · rw [if_neg hf, Option.map_some]
            simp only [Malformed.message_notFinite, Binary.nonFiniteName]
            by_cases hn : value.isNaN = true
            · rw [if_pos hn, if_pos hn]
              rfl
            · have hi : value.isInfinite = true := by
                by_contra hi
                exact hf ((Binary.isFinite_iff value).mpr ⟨by simpa using hn, by simpa using hi⟩)
              rw [if_neg hn, if_neg hn, if_pos hi]

/-- A node has a complaint exactly when it has a defect. -/
theorem complaint?_eq_none_iff (node : Expr) :
    node.complaint? = none ↔ node.defect? = none := by
  rw [← map_message_defect?, Option.map_eq_none_iff]

/-- The complaint of a node is the message of its defect. -/
theorem complaint?_eq_some_iff (node : Expr) (message : String) :
    node.complaint? = some message ↔
      ∃ reason, node.defect? = some reason ∧ reason.message = message := by
  rw [← map_message_defect?, Option.map_eq_some_iff]

/-- Only a text literal with a single quote in it has a quote, and that is the literal. -/
theorem quote?_eq_some_iff (node : Expr) (literal : String) :
    node.quote? = some literal ↔ node = .literal (.text literal) ∧ '\'' ∈ literal.toList := by
  cases node with
  | literal value =>
      cases value with
      | text value =>
          by_cases h : '\'' ∈ value.toList <;> simp [quote?, h]
          · rintro rfl
            exact h
          · rintro rfl
            exact h
      | _ => simp [quote?]
  | _ => simp [quote?]

end Expr

/-! ### Visits -/

namespace Compilation

/-- The visit of nodes that leaves a text behind: it reports the quotes up to the first node
with a defect and ends there if there is one. -/
def visit (nodes : List Expr) (text : String) : Compilation where
  quotes := (nodes.takeWhile fun node => node.defect?.isNone).filterMap Expr.quote?
  result :=
    match nodes.findSome? Expr.defect? with
    | none => .ok text
    | some reason => .error reason

/-- A node without a defect and without a quote leaves no trace of its own. -/
theorem visit_cons_of_none {node : Expr} (hd : node.defect? = none) (hq : node.quote? = none)
    (nodes : List Expr) (text : String) : visit (node :: nodes) text = visit nodes text := by
  simp only [visit, List.takeWhile_cons, hd, Option.isNone_none, if_true,
    List.filterMap_cons, hq, List.findSome?_cons]

/-- A node with a defect ends the visit. -/
theorem visit_cons_of_some {node : Expr} {reason : Malformed} (hd : node.defect? = some reason)
    (nodes : List Expr) (text : String) : visit (node :: nodes) text = malformed reason := by
  simp only [visit, List.takeWhile_cons, hd, Option.isNone_some, Bool.false_eq_true, if_false,
    List.filterMap_nil, List.findSome?_cons, malformed]

/-- **Visits in a row** are the visit of all the nodes. -/
theorem visit_append (ns ms : List Expr) (s t : String) :
    visit ns s ++ visit ms t = visit (ns ++ ms) (s ++ t) := by
  cases hn : ns.findSome? Expr.defect? with
  | none =>
      have hsound : ∀ n ∈ ns, (n.defect?.isNone) = true := by
        intro n hmem
        simp only [List.findSome?_eq_none_iff] at hn
        simp [hn n hmem]
      have hok : (visit ns s).result = .ok s := by simp [visit, hn]
      rw [append_of_ok hok]
      ext1
      · simp [visit, List.takeWhile_append_of_pos hsound, List.takeWhile_eq_self_iff.mpr hsound]
      · simp only [visit, List.findSome?_append, hn, Option.none_or]
        cases ms.findSome? Expr.defect? <;> rfl
  | some reason =>
      have herr : (visit ns s).result = .error reason := by simp [visit, hn]
      rw [append_of_error herr]
      obtain ⟨before, node, after, rfl, hnode, hsound⟩ := List.findSome?_eq_some_iff.mp hn
      have hsound' : ∀ n ∈ before, (n.defect?.isNone) = true := by
        intro n hmem
        simp [hsound n hmem]
      ext1
      · simp [visit, List.takeWhile_append_of_pos hsound', hnode]
      · have hfirst : (before ++ node :: after ++ ms).findSome? Expr.defect? = some reason := by
          rw [List.findSome?_append, hn, Option.some_or]
        simp only [visit, hn, hfirst]

/-- A text by itself is the visit of no node. -/
theorem text_eq_visit (s : String) : text s = visit [] s := rfl

end Compilation

/-! ### Compiling is a visit -/

/-- A literal is compiled by visiting it. -/
theorem Literal.compile_eq_visit (value : Literal) :
    value.compile = .visit [.literal value] value.written := by
  cases value with
  | text value =>
      ext1
      · by_cases h : '\'' ∈ value.toList <;>
          simp [Literal.compile, Compilation.visit, Expr.defect?, Expr.quote?, h]
      · rfl
  | integer value => rfl
  | float value =>
      by_cases h : value.isFinite = true
      · rw [Compilation.visit_cons_of_none (by simp [Expr.defect?, h]) rfl, Literal.compile,
          if_pos h, Literal.written, Compilation.text_eq_visit]
      · have hd : (Expr.literal (.float value)).defect? = some (.notFinite value) := by
          simp [Expr.defect?, h]
        rw [Compilation.visit_cons_of_some hd, Literal.compile, if_neg h]

namespace Expr

/-- Arguments are compiled by visiting their nodes, if each of them is. -/
theorem compileAll_eq_visit {args : List Expr}
    (h : ∀ arg ∈ args, arg.compile = .visit arg.nodes arg.written) (mark : String) :
    compileAll mark args = .visit (nodesAll args) (writtenAll mark args) := by
  induction args generalizing mark with
  | nil => rfl
  | cons arg rest ih =>
      have hrest : compileAll ", " rest = .visit (nodesAll rest) (writtenAll ", " rest) :=
        ih (fun other hmem => h other (List.mem_cons_of_mem _ hmem)) ", "
      rw [compileAll, h arg List.mem_cons_self, hrest, Compilation.text_eq_visit,
        Compilation.visit_append, Compilation.visit_append]
      rfl

/-- **Compiling is a visit** of the nodes in preorder. -/
theorem compile_eq (e : Expr) : e.compile = .visit e.nodes e.written := by
  induction e with
  | field f => rfl
  | literal value => rw [compile, Literal.compile_eq_visit, nodes, written]
  | formula text => rfl
  | compare lhs op rhs ihl ihr =>
      rw [compile, ihl, ihr, nodes, Compilation.visit_cons_of_none rfl rfl]
      simp only [Compilation.text_eq_visit, Compilation.visit_append, List.nil_append,
        List.append_nil, written]
  | call fn args ih =>
      rw [compile, nodes]
      by_cases h : fn.accepts args.length = true
      · rw [Compilation.visit_cons_of_none (by simp [defect?, h]) rfl, if_pos h,
          compileAll_eq_visit ih]
        simp only [Compilation.text_eq_visit, Compilation.visit_append, List.nil_append,
          List.append_nil, written]
      · have hd : (call fn args).defect? = some (.argumentCount fn args.length) := by
          simp [defect?, h]
        rw [Compilation.visit_cons_of_some hd, if_neg h]

/-- **Failure and warnings of compiling.** Compiling succeeds exactly when no node has a
complaint, and otherwise ends with the complaint of the first node in preorder that has one.
The warnings are those of the text literals with a single quote among the nodes before that
one, among all nodes if there is none, in their order and each with its literal. -/
theorem compile_preorder (e : Expr) :
    ((∃ text, e.compile.result = .ok text) ↔ ∀ node ∈ e.nodes, node.complaint? = none) ∧
      (∀ message, (∃ reason, e.compile.result = .error reason ∧ reason.message = message) ↔
        ∃ before node after, e.nodes = before ++ node :: after ∧
          (∀ other ∈ before, other.complaint? = none) ∧ node.complaint? = some message) ∧
      e.compile.events =
        ((e.nodes.takeWhile fun node => node.complaint?.isNone).filterMap quote?).map
          .quoteInLiteral ∧
      (∀ (node : Expr) literal, node.quote? = some literal ↔
        node = .literal (.text literal) ∧ '\'' ∈ literal.toList) := by
  have hnone : ∀ node : Expr, node.complaint?.isNone = node.defect?.isNone := by
    intro node
    rw [← map_message_defect?, Option.isNone_map]
  refine ⟨?_, ?_, ?_, quote?_eq_some_iff⟩
  · simp only [complaint?_eq_none_iff, compile_eq, Compilation.visit]
    rw [← List.findSome?_eq_none_iff]
    cases e.nodes.findSome? defect? <;> simp
  · intro message
    simp only [complaint?_eq_none_iff, complaint?_eq_some_iff]
    have herror : ∀ reason, e.compile.result = .error reason ↔
        e.nodes.findSome? defect? = some reason := by
      intro reason
      simp only [compile_eq, Compilation.visit]
      cases e.nodes.findSome? defect? <;> simp
    constructor
    · rintro ⟨reason, hreason, hmessage⟩
      obtain ⟨before, node, after, hnodes, hnode, hbefore⟩ :=
        List.findSome?_eq_some_iff.mp ((herror reason).mp hreason)
      exact ⟨before, node, after, hnodes, hbefore, reason, hnode, hmessage⟩
    · rintro ⟨before, node, after, hnodes, hbefore, reason, hnode, hmessage⟩
      refine ⟨reason, (herror reason).mpr ?_, hmessage⟩
      exact List.findSome?_eq_some_iff.mpr ⟨before, node, after, hnodes, hnode, hbefore⟩
  · simp only [hnone, Compilation.events, compile_eq, Compilation.visit]

end Expr

end RecordQuery
