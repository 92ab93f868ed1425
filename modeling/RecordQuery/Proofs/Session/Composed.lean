import RecordQuery.Proofs.Formula.Composed
import RecordQuery.Proofs.Session.Perform

/-!
# Recipes for Composed Expressions

A recipe *composes* if it makes no call by hand, has no float that is not finite, gives every
helper as many operands as it takes, and takes composed expressions from names. While it is
followed, expressions may be compiled on the spot. Nothing that is malformed comes up on the
way or in the end: the recipe is refused only if a name stands for nothing.

## Main results

* `Recipe.Composes.ensures` — what comes of following such a recipe;
* `Session.compile_composes` — what comes of compiling what it builds.
-/

namespace RecordQuery

open RecordQuery.Action

/-- A recipe that makes expressions with helpers and comparisons alone. -/
inductive Recipe.Composes (s : Session) : Recipe → Prop where
  | newField (remoteName : String) : Composes s (.newField remoteName)
  | field (handle : Handle) : Composes s (.field handle)
  | expr {handle : Handle}
      (hnamed : ∀ e, (s.names.get? handle).bind Object.expr? = some e → e.Composed) :
      Composes s (.expr handle)
  | literal {value : Literal} (hvalue : (Expr.literal value).Composed) :
      Composes s (.literal value)
  | formula (text : String) : Composes s (.formula text)
  | compiled {part : Recipe} (hpart : Composes s part) : Composes s (.compiled part)
  | compare {lhs rhs : Recipe} (op : Comparison) (hlhs : Composes s lhs)
      (hrhs : Composes s rhs) : Composes s (.compare lhs op rhs)
  | helper {helper : Helper} {operands : List Recipe}
      (hcount : helper.arity.accepts operands.length = true)
      (hall : ∀ operand ∈ operands, Composes s operand) : Composes s (.helper helper operands)
  | nest {helper : Helper} {operand : Recipe} (count : Nat)
      (hcount : helper.arity.accepts 1 = true) (hoperand : Composes s operand) :
      Composes s (.nest helper count operand)
  | fold {helper : Helper} {first : Recipe} {others : List Recipe}
      (hcount : helper.arity.accepts 2 = true) (hfirst : Composes s first)
      (hothers : ∀ other ∈ others, Composes s other) : Composes s (.fold helper first others)

/-! ### Following recipes -/

namespace Action

variable {α β : Type} {s : Session} {P : α → Prop} {Q : β → Prop}

/-- Whether an action leaves the names alone and gives what is expected, unless a name stands for
nothing. -/
def Ensures (s : Session) (a : Action α) (P : α → Prop) : Prop :=
  (exec a s).2.names = s.names ∧
    match (exec a s).1 with
    | .ok x => P x
    | .error refusal => refusal = .unbound

theorem Ensures.pure {x : α} (h : P x) : Ensures s (pure x) P := ⟨rfl, h⟩

/-- **One action after the other.** The second is done with the names of the first. -/
theorem Ensures.bind {a : Action α} {f : α → Action β} (ha : Ensures s a P)
    (hf : ∀ x s', s'.names = s.names → P x → Ensures s' (f x) Q) : Ensures s (a >>= f) Q := by
  obtain ⟨hnames, hresult⟩ := ha
  rw [Ensures, exec_bind]
  rcases hexec : exec a s with ⟨refusal | x, s'⟩
  · rw [hexec] at hnames hresult
    exact ⟨hnames, hresult⟩
  · rw [hexec] at hnames hresult
    obtain ⟨hnames', hresult'⟩ := hf x s' hnames hresult
    exact ⟨hnames'.trans hnames, hresult'⟩

theorem ensures_stamp : Ensures s stamp fun _ => True := ⟨rfl, trivial⟩

/-- What is found under a name is as expected if all that could be found is. -/
theorem ensures_lookUp {select : Object → Option α} {handle : Handle}
    (h : ∀ x, (s.names.get? handle).bind select = some x → P x) :
    Ensures s (lookUp select handle) P := by
  rw [Ensures, exec_lookUp]
  refine ⟨rfl, ?_⟩
  cases hfound : (s.names.get? handle).bind select with
  | none => exact rfl
  | some x => exact h x hfound

/-- A composed expression is compiled without fail. -/
theorem ensures_compile {e : Expr} (h : e.Composed) :
    Ensures s (compile e) fun text => e.compile.result = .ok text := by
  have hreport : Ensures s (report e.compile.events) fun _ => True := ⟨rfl, trivial⟩
  refine hreport.bind fun _ s' _ _ => ?_
  obtain ⟨text, htext⟩ := Expr.exists_compile_iff.mpr h.defect?_eq_none
  rw [htext]
  exact .pure rfl

/-- A helper that is given as many composed operands as it takes makes one of them. -/
theorem ensures_apply {helper : Helper} {operands : List Expr}
    (hcount : helper.arity.accepts operands.length = true)
    (hall : ∀ operand ∈ operands, operand.Composed) :
    Ensures s (Recipe.apply helper operands) Expr.Composed := by
  obtain ⟨e, hbuild⟩ := Helper.exists_build?_iff.mpr hcount
  rw [Recipe.apply, hbuild]
  exact .pure (.helper hall hbuild)

theorem ensures_applyTimes {helper : Helper} {operand : Expr} (count : Nat)
    (hcount : helper.arity.accepts 1 = true) (h : operand.Composed) :
    Ensures s (Recipe.applyTimes helper count operand) Expr.Composed := by
  induction count generalizing s operand with
  | zero => exact .pure h
  | succ count ih =>
      have happly : Ensures s (Recipe.apply helper [operand]) Expr.Composed :=
        ensures_apply hcount (List.forall_mem_singleton.mpr h)
      exact happly.bind fun e s' _ he => ih he

theorem ensures_applyAll {helper : Helper} {first : Expr} {others : List Expr}
    (hcount : helper.arity.accepts 2 = true) (hfirst : first.Composed)
    (hothers : ∀ other ∈ others, other.Composed) :
    Ensures s (others.foldlM (fun acc other => Recipe.apply helper [acc, other]) first)
      Expr.Composed := by
  induction others generalizing s first with
  | nil => exact .pure hfirst
  | cons other others ih =>
      obtain ⟨hother, hothers⟩ := List.forall_mem_cons.mp hothers
      rw [List.foldlM_cons]
      have happly : Ensures s (Recipe.apply helper [first, other]) Expr.Composed :=
        ensures_apply hcount
          (List.forall_mem_cons.mpr ⟨hfirst, List.forall_mem_singleton.mpr hother⟩)
      exact happly.bind fun e s' _ he => ih he hothers

/-- Recipes that are followed one after the other, if each of them can be followed. -/
theorem ensures_buildAll {recipes : List Recipe}
    (h : ∀ recipe ∈ recipes, ∀ s', s'.names = s.names → Ensures s' recipe.build Expr.Composed) :
    Ensures s (Recipe.buildAll recipes) fun es =>
      es.length = recipes.length ∧ ∀ e ∈ es, e.Composed := by
  induction recipes generalizing s with
  | nil => exact .pure ⟨rfl, List.forall_mem_nil _⟩
  | cons recipe rest ih =>
      obtain ⟨hrecipe, hrest⟩ := List.forall_mem_cons.mp h
      refine (hrecipe s rfl).bind fun e s₁ hnames he => ?_
      have hall := ih (s := s₁) fun other hother s' hs' => hrest other hother s' (hs'.trans hnames)
      refine hall.bind fun es s₂ _ hes => .pure ⟨congrArg (· + 1) hes.1, ?_⟩
      exact List.forall_mem_cons.mpr ⟨he, hes.2⟩

end Action

namespace Recipe

variable {recipe : Recipe} {s : Session}

/-- **Following a recipe that composes** makes a composed expression, unless a name stands for
nothing. What is compiled on the way compiles. -/
theorem Composes.ensures (h : recipe.Composes s) {s' : Session} (hs' : s'.names = s.names) :
    Ensures s' recipe.build Expr.Composed := by
  -- The parts are followed in sessions that differ from the first one in no name.
  induction h generalizing s' with
  | newField remoteName => exact ensures_stamp.bind fun _ _ _ _ => .pure (.field _)
  | field handle =>
      exact Ensures.bind (P := fun _ => True) (ensures_lookUp fun _ _ => trivial)
        fun _ _ _ _ => .pure (.field _)
  | expr hnamed => exact ensures_lookUp (hs' ▸ hnamed)
  | literal hvalue => exact .pure hvalue
  | formula text => exact .pure (.formula text)
  | compiled hpart ih =>
      refine (ih hs').bind fun e _ _ he => ?_
      exact (ensures_compile he).bind fun _ _ _ htext => .pure (.compiled he htext)
  | compare op hlhs hrhs ihl ihr =>
      refine (ihl hs').bind fun l s₁ hnames hl => ?_
      exact (ihr (hnames.trans hs')).bind fun r _ _ hr => .pure (.compare op hl hr)
  | helper hcount hall ih =>
      have hoperands := ensures_buildAll (s := s') fun operand hoperand s₁ hs₁ =>
        ih operand hoperand (hs₁.trans hs')
      exact hoperands.bind fun es _ _ hes => ensures_apply (hes.1 ▸ hcount) hes.2
  | nest count hcount hoperand ih =>
      exact (ih hs').bind fun e _ _ he => ensures_applyTimes count hcount he
  | fold hcount hfirst hothers ihfirst ihothers =>
      refine (ihfirst hs').bind fun e s₁ hnames he => ?_
      have hrest := ensures_buildAll (s := s₁) fun other hother s₂ hs₂ =>
        ihothers other hother (hs₂.trans (hnames.trans hs'))
      exact hrest.bind fun es _ _ hes => ensures_applyAll hcount he hes.2

end Recipe

namespace Session

/-- **Compiling what helpers make** gives a formula, unless a name stands for nothing. -/
theorem compile_composes {s : Session} {recipe : Recipe} (h : recipe.Composes s)
    (name : Option Handle) :
    (s.step ⟨.compile recipe, name⟩).1.result = .error .unbound ∨
      ∃ text, (s.step ⟨.compile recipe, name⟩).1.result = .ok (.formula text) := by
  have hbuild : Ensures s.started recipe.build Expr.Composed := h.ensures rfl
  have hensures : Ensures s.started (perform (.compile recipe)) fun given =>
      ∃ text, given.1 = .formula text := by
    refine hbuild.bind fun e s' _ he => ?_
    exact (ensures_compile he).bind fun text _ _ _ => .pure ⟨text, rfl⟩
  rw [result_step]
  obtain ⟨-, hresult⟩ := hensures
  cases hexec : (exec (perform (.compile recipe)) s.started).1 with
  | error refusal =>
      rw [hexec] at hresult
      exact .inl (congrArg Except.error hresult)
  | ok given =>
      rw [hexec] at hresult
      obtain ⟨text, htext⟩ := hresult
      exact .inr ⟨text, congrArg Except.ok htext⟩

end Session

end RecordQuery
