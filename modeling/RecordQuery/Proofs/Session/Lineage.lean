import RecordQuery.Proofs.Session.Trail

/-!
# Makings and Lineages

A field handle is got by making a field, or out of something that holds it already: another
handle, a table, a schema, a projection, a sort key or an expression. Where the handle stands in
what holds it is told by a *path*, and a *lineage* tells for every path which making the field
there goes back to.

What an operation does to fields can be told without looking at any field: the lineage of what
it gives comes from the lineages of what it takes. A copy has the lineage of the original, a
table the one of its parts put together, and what is looked up the one that stands under the
name; only a new field begins a lineage of its own. Stamps play no part in it.

## Main definitions

* `Object.fieldAt`, `Answer.fieldAt` — the field at a path;
* `Operation.lineage` — the lineage of what an operation gives;
* `Session.lineages`, `Session.origin` — the lineages in a run, under names and in answers.
-/

namespace RecordQuery

open RecordQuery.Action

/-! ### Paths -/

/-- One step into something that holds fields. -/
inductive Key where
  /-- To what is under a logical name. -/
  | entry (name : String)
  /-- To the table of a remote name. -/
  | table (remoteName : String)
  /-- To an operand. -/
  | operand (position : Nat)
  deriving DecidableEq

/-- The way to a field from the outside of what holds it. -/
abbrev Path := List Key

/-- A handle is where its field is. -/
def Field.fieldAt (f : Field) : Path → Option Field
  | [] => some f
  | _ :: _ => none

/-- A handle has one field. -/
theorem Field.exists_fieldAt_iff {f g : Field} : (∃ path, g.fieldAt path = some f) ↔ f = g := by
  constructor
  · rintro ⟨_ | _, h⟩
    · exact (Option.some.inj h).symm
    · cases h
  · rintro rfl
    exact ⟨[], rfl⟩

/-- The field of a projection at a path. -/
def Projection.fieldAt (p : Projection) : Path → Option Field
  | [.entry name] => p.get? name
  | _ => none

/-- Every field of a projection is at some path. -/
theorem Projection.mem_items_iff_fieldAt {p : Projection} {f : Field} :
    f ∈ p.fields.items ↔ ∃ path, p.fieldAt path = some f := by
  rw [NameMap.mem_items_iff]
  constructor
  · rintro ⟨name, hf⟩
    exact ⟨[.entry name], hf⟩
  · rintro ⟨path, hf⟩
    rw [fieldAt.eq_def] at hf
    split at hf
    · next name => exact ⟨name, hf⟩
    · cases hf

/-- The field of a table at a path. -/
def Table.fieldAt (table : Table) : Path → Option Field := table.projection.fieldAt

/-- The field of a schema at a path. -/
def Schema.fieldAt (schema : Schema) : Path → Option Field
  | .table remoteName :: path => (schema.table? remoteName).bind (·.fieldAt path)
  | _ => none

/-- Every field of a schema is at some path. -/
theorem Schema.mem_fields_iff_fieldAt {schema : Schema} {f : Field} :
    f ∈ schema.fields ↔ ∃ path, schema.fieldAt path = some f := by
  rw [fields, List.mem_flatMap]
  constructor
  · rintro ⟨table, htable, hf⟩
    obtain ⟨remoteName, hremote⟩ := (NameMap.mem_items_iff _ _).mp htable
    obtain ⟨path, hf⟩ := (Projection.mem_items_iff_fieldAt (p := table.projection)).mp hf
    have hfound : schema.table? remoteName = some table := hremote
    refine ⟨.table remoteName :: path, ?_⟩
    rw [fieldAt, hfound]
    exact hf
  · rintro ⟨path, hf⟩
    rw [fieldAt.eq_def] at hf
    split at hf
    · obtain ⟨table, htable, hf⟩ := Option.bind_eq_some_iff.mp hf
      have hitems := (Projection.mem_items_iff_fieldAt (p := table.projection)).mpr ⟨_, hf⟩
      exact ⟨table, NameMap.mem_items_of_get? htable, hitems⟩
    · cases hf

namespace Expr

/-- The operands of a node. -/
def operands : Expr → List Expr
  | .compare lhs _ rhs => [lhs, rhs]
  | .call _ args => args
  | .field _ | .literal _ | .formula _ => []

/-- The field of an expression at a path. -/
def fieldAt : Expr → Path → Option Field
  | .field f, [] => some f
  | e, .operand position :: path => e.operands[position]?.bind (fieldAt · path)
  | _, _ => none

/-- The fields of an operand are fields of the node. -/
theorem fieldAt_operand (e : Expr) (position : Nat) (inner : Path) :
    e.fieldAt (.operand position :: inner) = e.operands[position]?.bind (fieldAt · inner) := by
  cases e <;> rfl

/-- A field that is not the node itself is in an operand. -/
theorem exists_operand {e : Expr} {path : Path} {f : Field} (hnode : e.fieldAt [] = none)
    (h : e.fieldAt path = some f) :
    ∃ position inner operand, path = .operand position :: inner ∧
      e.operands[position]? = some operand ∧ operand.fieldAt inner = some f := by
  rcases path with _ | ⟨_ | _ | position, inner⟩
  · rw [hnode] at h
    cases h
  · cases e <;> cases h
  · cases e <;> cases h
  · rw [fieldAt_operand] at h
    obtain ⟨operand, hoperand, hf⟩ := Option.bind_eq_some_iff.mp h
    exact ⟨position, inner, operand, rfl, hoperand, hf⟩

/-- A bare field is a handle of the field. -/
theorem fieldAt_field (f : Field) : (field f).fieldAt = f.fieldAt := by
  funext path
  rcases path with _ | ⟨_ | _ | _, path⟩ <;> rfl

/-- The fields in a node are those in its operands. -/
theorem exists_fieldAt_iff {e : Expr} {f : Field} (hnode : e.fieldAt [] = none) :
    (∃ path, e.fieldAt path = some f) ↔
      ∃ operand ∈ e.operands, ∃ inner, operand.fieldAt inner = some f := by
  constructor
  · rintro ⟨path, hf⟩
    obtain ⟨position, inner, operand, -, hoperand, hf⟩ := exists_operand hnode hf
    exact ⟨operand, List.mem_of_getElem? hoperand, inner, hf⟩
  · rintro ⟨operand, hoperand, inner, hf⟩
    obtain ⟨position, hposition⟩ := List.mem_iff_getElem?.mp hoperand
    refine ⟨.operand position :: inner, ?_⟩
    rw [fieldAt_operand, hposition]
    exact hf

/-- Every field of an expression is at some path. -/
theorem mem_fields_iff_fieldAt {e : Expr} {f : Field} :
    f ∈ e.fields ↔ ∃ path, e.fieldAt path = some f := by
  induction e with
  | field g =>
      rw [fieldAt_field, Field.exists_fieldAt_iff]
      simp [fields, nodes, field?]
  | literal value | formula text =>
      rw [exists_fieldAt_iff rfl]
      simp [fields, nodes, field?, operands]
  | compare lhs op rhs ihl ihr =>
      rw [exists_fieldAt_iff rfl, fields_compare, List.mem_append, ihl, ihr]
      simp [operands]
  | call fn args ih =>
      rw [exists_fieldAt_iff rfl, mem_fields_call]
      exact exists_congr fun arg => and_congr_right fun harg => ih arg harg

end Expr

/-- The field at a path, if an object gives handles of its fields out. -/
def Object.fieldAt : Object → Path → Option Field
  | .field f => f.fieldAt
  | .table t => t.fieldAt
  | .schema found => found.fieldAt
  | .projection p => p.fieldAt
  | .sort key => key.field.fieldAt
  | .expr e => e.fieldAt
  | .base _ | .query _ | .descriptor _ | .row _ | .error _ => fun _ => none

/-- Whether an object gives handles of its fields out. -/
def Object.IsOpen : Object → Prop
  | .query _ | .descriptor _ => False
  | _ => True

/-- Every field that an object gives out is at some path. -/
theorem Object.mem_fields_iff_fieldAt {o : Object} {f : Field} (h : o.IsOpen) :
    f ∈ o.fields ↔ ∃ path, o.fieldAt path = some f := by
  cases o with
  | field g => rw [fields, List.mem_singleton, fieldAt, Field.exists_fieldAt_iff]
  | sort key => rw [fields, List.mem_singleton, fieldAt, Field.exists_fieldAt_iff]
  | table t => exact Projection.mem_items_iff_fieldAt (p := t.projection)
  | projection p => exact Projection.mem_items_iff_fieldAt
  | schema found => exact Schema.mem_fields_iff_fieldAt
  | expr e => exact Expr.mem_fields_iff_fieldAt
  | query | descriptor => exact h.elim
  | base | row | error => simp [fields, fieldAt]

namespace Answer

/-- The object with handles of fields that an answer shows. -/
def object? : Answer → Option Object
  | .field f _ => some (.field f)
  | .foundField found | .projectedField _ found => found.map .field
  | .table t => some (.table t)
  | .foundTable found => found.map .table
  | .projection p => some (.projection p)
  | .schema found => some (.schema found)
  | .sort key => some (.sort key)
  | .expr e _ => some (.expr e)
  | _ => none

/-- The field of an answer at a path. Two fields are shown like operands. -/
def fieldAt : Answer → Path → Option Field
  | .fields a _, .operand 0 :: path => a.fieldAt path
  | .fields _ b, .operand 1 :: path => b.fieldAt path
  | answer, path => answer.object?.bind (·.fieldAt path)

/-- Whether an answer gives handles of its fields out. -/
def IsOpen : Answer → Prop
  | .query _ | .descriptor _ | .descriptors _ _ => False
  | _ => True

/-- Every field that an answer gives out is at some path. -/
theorem mem_shown_iff_fieldAt {answer : Answer} {f : Field} (h : answer.IsOpen) :
    f ∈ answer.shown ↔ ∃ path, answer.fieldAt path = some f := by
  have hnone : ¬ ∃ path : Path, (none : Option Field) = some f := by simp
  cases answer with
  | fields a b =>
      rw [shown, List.mem_cons, List.mem_singleton]
      constructor
      · rintro (rfl | rfl)
        · exact ⟨[.operand 0], rfl⟩
        · exact ⟨[.operand 1], rfl⟩
      · rintro ⟨_ | ⟨_ | _ | _ | _ | _, path⟩, hf⟩
        case cons.operand.zero => exact .inl (Field.exists_fieldAt_iff.mp ⟨path, hf⟩)
        case cons.operand.succ.zero => exact .inr (Field.exists_fieldAt_iff.mp ⟨path, hf⟩)
        all_goals cases hf
  | foundField found | projectedField contained found =>
      cases found with
      | none => exact iff_of_false List.not_mem_nil hnone
      | some g => exact Object.mem_fields_iff_fieldAt (o := .field g) trivial
  | foundTable found =>
      cases found with
      | none => exact iff_of_false List.not_mem_nil hnone
      | some t => exact Object.mem_fields_iff_fieldAt (o := .table t) trivial
  | field g outline => exact Object.mem_fields_iff_fieldAt (o := .field g) trivial
  | table t => exact Object.mem_fields_iff_fieldAt (o := .table t) trivial
  | projection p => exact Object.mem_fields_iff_fieldAt (o := .projection p) trivial
  | schema found => exact Object.mem_fields_iff_fieldAt (o := .schema found) trivial
  | sort key => exact Object.mem_fields_iff_fieldAt (o := .sort key) trivial
  | expr e outline => exact Object.mem_fields_iff_fieldAt (o := .expr e) trivial
  | query | descriptor | descriptors => exact h.elim
  | _ => exact iff_of_false List.not_mem_nil hnone

/-- What an answer shows at a path is one of its fields. -/
theorem mem_shown_of_fieldAt {answer : Answer} {path : Path} {f : Field}
    (h : answer.fieldAt path = some f) : f ∈ answer.shown := by
  have hopen : answer.IsOpen := by
    cases answer <;> trivial
  exact (mem_shown_iff_fieldAt hopen).mpr ⟨path, h⟩

end Answer

/-! ### Lineages -/

/-- The making of a field: the step in which it is made, and its place among the fields that
are made in this step. -/
structure Making where
  step : Nat
  place : Nat
  deriving DecidableEq

/-- The makings that the fields of something go back to, path by path. What it has at a path where
there is no field says nothing. -/
abbrev Lineage := Path → Option Making

namespace Lineage

/-- The lineage of what has no fields. -/
def nil : Lineage := fun _ => none

/-- The lineage of a new field. -/
def new (making : Making) : Lineage
  | [] => some making
  | _ :: _ => none

/-- The lineage of a part. -/
def part (whole : Lineage) (key : Key) : Lineage := fun path => whole (key :: path)

/-- The lineage of a whole with a part that takes the place of the one before. -/
def put (whole : Lineage) (key : Key) (part : Lineage) : Lineage
  | [] => whole []
  | first :: path => if first = key then part path else whole (first :: path)

/-- The lineage of what is put together part by part. Of parts with one key the last counts. -/
def ofParts (parts : List (Key × Lineage)) : Lineage :=
  parts.foldl (fun whole part => whole.put part.1 part.2) nil

/-- The lineage of a node over operands. -/
def ofOperands (parts : List Lineage) : Lineage
  | .operand position :: path => parts[position]?.bind (· path)
  | _ => none

end Lineage

/-! ### What operations do -/

namespace Recipe

mutual

/-- The number of fields that are made while a recipe is followed to its end. -/
def makings : Recipe → Nat
  | .newField _ => 1
  | .field _ | .expr _ | .literal _ | .formula _ => 0
  | .compiled part | .nest _ _ part => makings part
  | .compare lhs _ rhs => makings lhs + makings rhs
  | .call _ args | .helper _ args => makingsAll args
  | .fold _ first others => makings first + makingsAll others

/-- The number of fields that are made while recipes are followed. -/
def makingsAll : List Recipe → Nat
  | [] => 0
  | recipe :: rest => makings recipe + makingsAll rest

end

variable (held : Handle → Lineage) (step : Nat)

mutual

/-- The lineage of the expression of a recipe, in a step in which `place` fields are made before.
A formula that was compiled holds no fields any more. -/
def lineage (place : Nat) : Recipe → Lineage
  | .newField _ => .new ⟨step, place⟩
  | .field handle | .expr handle => held handle
  | .literal _ | .formula _ | .compiled _ => .nil
  | .compare lhs _ rhs =>
    .ofOperands [lineage place lhs, lineage (place + lhs.makings) rhs]
  | .call _ args | .helper _ args => .ofOperands (lineageAll place args)
  | .nest _ count part => (fun inner => .ofOperands [inner])^[count] (lineage place part)
  | .fold _ first others =>
    (lineageAll (place + first.makings) others).foldl (fun acc other => .ofOperands [acc, other])
      (lineage place first)

/-- The lineages of the expressions of recipes that are followed one after the other. -/
def lineageAll (place : Nat) : List Recipe → List Lineage
  | [] => []
  | recipe :: rest => lineage place recipe :: lineageAll (place + recipe.makings) rest

end

end Recipe

namespace Operation

/-- The number of fields that an operation makes and gives out. -/
def makings : Operation → Nat
  | .newField _ _ _ => 1
  | .newExpr recipe _ => recipe.makings
  | _ => 0

/-- The names whose objects an operation changes. -/
def changes : Operation → List Handle
  | .insertField projection _ _ => [projection]
  | _ => []

/-- **The lineage of what an operation gives**, from the lineages of what is under names. The
session tells the remote names of tables; queries, rows and errors give no fields out. -/
def lineage (s : Session) (held : Handle → Lineage) (step : Nat) : Operation → Lineage
  | .newField _ _ _ => .new ⟨step, 0⟩
  | .copyField handle | .newSort handle _ | .projectTable handle _ | .wholeProjection handle =>
    held handle
  | .compareFields a b => .ofOperands [held a, held b]
  | .newTable _ named | .newProjection named =>
    .ofParts (named.map fun entry => (.entry entry.1, held entry.2))
  | .newSchema handles =>
    .ofParts (handles.filterMap fun handle =>
      ((s.names.get? handle).bind Object.table?).map fun table =>
        (.table table.remoteName, held handle))
  | .tableField handle name | .projectedField handle name => (held handle).part (.entry name)
  | .schemaTable handle remoteName => (held handle).part (.table remoteName)
  | .insertField handle name inserted => (held handle).put (.entry name) (held inserted)
  | .newExpr recipe _ => recipe.lineage held step 0
  | _ => .nil

end Operation

/-! ### Lineages in a run -/

namespace Lineage

/-- The lineages under names after something of a lineage was kept under some of them. -/
def keep (held : Handle → Lineage) (handles : List Handle) (given : Lineage) : Handle → Lineage :=
  fun handle => if handle ∈ handles then given else held handle

/-- Nothing is kept under no name. -/
theorem keep_nil (held : Handle → Lineage) (given : Lineage) : keep held [] given = held :=
  funext fun _ => if_neg List.not_mem_nil

/-- A lineage that is kept under names, and under others after that, is kept under all. -/
theorem keep_append (held : Handle → Lineage) (handles others : List Handle) (given : Lineage) :
    keep (keep held others given) handles given = keep held (handles ++ others) given := by
  funext handle
  simp only [keep, List.mem_append]
  by_cases h : handle ∈ handles
  · rw [if_pos h, if_pos (.inl h)]
  · simp only [h, false_or, if_false]

end Lineage

/-- The names under which a step keeps what comes of its operation: an object, if one is made,
goes under the name of the step. -/
def Step.keeps (step : Step) : Except Refusal (Answer × Product) → List Handle
  | .ok (_, .object _) =>
    (step.name.or step.operation.defaultName).toList ++ step.operation.changes
  | .ok _ => step.operation.changes
  | .error _ => []

namespace Session

/-- The session before the step of a number. -/
def before (steps : List Step) (i : Nat) : Session := empty.after (steps.take i)

/-- The lineages under names before the step of a number. -/
def lineages (steps : List Step) : Nat → Handle → Lineage
  | 0 => fun _ => .nil
  | i + 1 =>
    match steps[i]? with
    | none => lineages steps i
    | some step =>
      Lineage.keep (lineages steps i)
        (step.keeps (exec (perform step.operation) (before steps i).started).1)
        (step.operation.lineage (before steps i) (lineages steps i) i)

/-- **The makings that the fields in the answer of a step go back to**, path by path. -/
def origin (steps : List Step) (i : Nat) : Lineage :=
  match steps[i]? with
  | none => .nil
  | some step => step.operation.lineage (before steps i) (lineages steps i) i

end Session

end RecordQuery
