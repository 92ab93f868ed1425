import Mathlib.Tactic.Common
import RecordQuery.Session.Step

/-!
# Actions that Settle

Most of what is done in a session touches neither the record stores nor the nodes of errors,
and makes nothing that leads to a store or an error to which no name led before. Such a
change is *calm*. An action *settles* when the change it makes is calm and what it gives is as
expected; settled actions in a row settle.

## Main results

* `Action.Settles.bind` — actions in a row;
* `Action.settles_build` — building an expression is calm.
-/

namespace RecordQuery

/-! ### What names lead to -/

namespace Session

/-- The base under a name. -/
def base? (s : Session) (handle : Handle) : Option Base :=
  (s.names.get? handle).bind Object.base?

/-- The query under a name. -/
def query? (s : Session) (handle : Handle) : Option Query :=
  (s.names.get? handle).bind Object.query?

/-- The descriptor under a name. -/
def descriptor? (s : Session) (handle : Handle) : Option Descriptor :=
  (s.names.get? handle).bind Object.descriptor?

/-- The node of the error under a name. -/
def error? (s : Session) (handle : Handle) : Option Nat :=
  (s.names.get? handle).bind Object.error?

/-- Whether an object is under a name, or loose in somebody's hand. -/
def Has (s : Session) (loose : List Object) (o : Object) : Prop :=
  o ∈ loose ∨ ∃ handle, s.names.get? handle = some o

/-- Whether an object leads to a record store. -/
def Leads (s : Session) (loose : List Object) (i : Nat) : Prop :=
  ∃ o, s.Has loose o ∧ o.service? = some i

/-- Whether the error of a node is under a name, or loose. -/
def Keeps (s : Session) (loose : List Object) (n : Nat) : Prop := s.Has loose (.error n)

/-- Whether a change touches no store and no node, and afterwards nothing leads to a store
or keeps an error that was not led to or kept before. Objects may be loose before and after. -/
structure Calm (s : Session) (loose : List Object) (s' : Session) (loose' : List Object) :
    Prop where
  services : s'.services = s.services
  heap : s'.heap = s.heap
  leads : ∀ i, s'.Leads loose' i → s.Leads loose i
  keeps : ∀ n, s'.Keeps loose' n → s.Keeps loose n

/-- An object that is under a name. -/
theorem has_of_get? {s : Session} {handle : Handle} {o : Object}
    (h : s.names.get? handle = some o) (loose : List Object) : s.Has loose o :=
  .inr ⟨handle, h⟩

variable {s s' s'' : Session} {loose loose' loose'' : List Object}

/-- A base under a name leads to its store. -/
theorem leads_of_base? {handle : Handle} {b : Base} (h : s.base? handle = some b) :
    s.Leads [] b.service := by
  obtain ⟨o, ho, hb⟩ := Option.bind_eq_some_iff.mp h
  cases o <;> cases hb
  exact ⟨_, has_of_get? ho [], rfl⟩

/-- A query under a name leads to the store of its base. -/
theorem leads_of_query? {handle : Handle} {q : Query} (h : s.query? handle = some q) :
    s.Leads [] q.base.service := by
  obtain ⟨o, ho, hq⟩ := Option.bind_eq_some_iff.mp h
  cases o <;> cases hq
  exact ⟨_, has_of_get? ho [], rfl⟩

/-- An error under a name is kept. -/
theorem keeps_of_error? {handle : Handle} {n : Nat} (h : s.error? handle = some n) :
    s.Keeps [] n := by
  obtain ⟨o, ho, hn⟩ := Option.bind_eq_some_iff.mp h
  cases o <;> cases hn
  exact has_of_get? ho []

/-- A session with a name taken away. -/
def without (s : Session) (handle : Handle) : Session :=
  { s with names := s.names.erase handle }

/-- Nothing happens. -/
theorem Calm.refl (s : Session) (loose : List Object) : s.Calm loose s loose :=
  ⟨rfl, rfl, fun _ h => h, fun _ h => h⟩

/-- One calm change after the other. -/
theorem Calm.trans (h : s.Calm loose s' loose') (h' : s'.Calm loose' s'' loose'') :
    s.Calm loose s'' loose'' where
  services := h'.services.trans h.services
  heap := h'.heap.trans h.heap
  leads i hi := h.leads i (h'.leads i hi)
  keeps n hn := h.keeps n (h'.keeps n hn)

/-- A change that touches no store and no node and puts nothing in new hands is calm. -/
theorem calm_of_has (hservices : s'.services = s.services) (hheap : s'.heap = s.heap)
    (hhas : ∀ o, s'.Has loose' o → s.Has loose o) : s.Calm loose s' loose' where
  services := hservices
  heap := hheap
  leads _ := fun ⟨o, ho, hi⟩ => ⟨o, hhas o ho, hi⟩
  keeps _ hn := hhas _ hn

/-- A name may be taken away. -/
theorem calm_without (s : Session) (handle : Handle) : s.Calm [] (s.without handle) [] := by
  refine calm_of_has rfl rfl ?_
  rintro o (hmem | ⟨handle', ho⟩)
  · cases hmem
  · simp only [without, NameMap.get?_erase] at ho
    split at ho
    · cases ho
    · exact has_of_get? ho []

end Session

namespace Object

/-- Whether an object leads only where names of a session lead. -/
structure KnownTo (o : Object) (s : Session) : Prop where
  leads : ∀ i, o.service? = some i → s.Leads [] i
  keeps : ∀ n, o = .error n → s.Keeps [] n

/-- An object that leads to no store and no error. -/
def IsInert : Object → Prop
  | .base _ | .query _ | .error _ => False
  | _ => True

variable {o : Object} {s s' : Session}

/-- What leads nowhere leads nowhere else. -/
theorem IsInert.knownTo (h : o.IsInert) (s : Session) : o.KnownTo s := by
  cases o <;> first | exact h.elim | exact ⟨nofun, nofun⟩

end Object

/-! ### Running actions -/

namespace Action

variable {α β : Type} {s : Session} {P : α → Prop} {Q : β → Prop}

/-- What an action gives in a session, and the session after it. -/
def exec (a : Action α) (s : Session) : Except Refusal α × Session := a.run.run s

@[simp] theorem exec_get (s : Session) : exec get s = (.ok s, s) := rfl

@[simp] theorem exec_modify (f : Session → Session) (s : Session) :
    exec (modify f) s = (.ok ⟨⟩, f s) := rfl

@[simp] theorem exec_modifyGet (f : Session → α × Session) (s : Session) :
    exec (modifyGet f) s = (.ok (f s).1, (f s).2) := rfl

/-- One action after the other. A refused action ends it. -/
theorem exec_bind (a : Action α) (f : α → Action β) (s : Session) :
    exec (a >>= f) s =
      match exec a s with
      | (.ok x, s') => exec (f x) s'
      | (.error refusal, s') => (.error refusal, s') := by
  have h : exec (a >>= f) s = (ExceptT.bindCont f (exec a s).1).run (exec a s).2 := rfl
  rw [h]
  rcases exec a s with ⟨_ | _, s'⟩ <;> rfl

/-- A refused action may be made up for. What it changed before stays changed. -/
theorem exec_tryCatch (a : Action α) (f : Refusal → Action α) (s : Session) :
    exec (tryCatch a f) s =
      match exec a s with
      | (.ok x, s') => (.ok x, s')
      | (.error refusal, s') => exec (f refusal) s' := by
  simp only [exec, ExceptT.run_tryCatch, StateT.run_bind]
  rcases StateT.run (ExceptT.run a) s with ⟨_ | _, s'⟩ <;> rfl

/-- What comes of looking something up. -/
def bound (found : Option α) : Except Refusal α := found.elim (.error .unbound) .ok

@[simp] theorem bound_some (x : α) : bound (some x) = .ok x := rfl

/-- What is under a name, if it is of the right type. -/
theorem exec_lookUp (select : Object → Option α) (handle : Handle) (s : Session) :
    exec (lookUp select handle) s = (bound ((s.names.get? handle).bind select), s) := by
  rw [lookUp, exec_bind, exec_get]
  simp only
  cases (s.names.get? handle).bind select <;> rfl

theorem exec_base (handle : Handle) (s : Session) :
    exec (base handle) s = (bound (s.base? handle), s) := exec_lookUp _ handle s

theorem exec_query (handle : Handle) (s : Session) :
    exec (query handle) s = (bound (s.query? handle), s) := exec_lookUp _ handle s

theorem exec_descriptor (handle : Handle) (s : Session) :
    exec (descriptor handle) s = (bound (s.descriptor? handle), s) := exec_lookUp _ handle s

theorem exec_error (handle : Handle) (s : Session) :
    exec (error handle) s = (bound (s.error? handle), s) := exec_lookUp _ handle s

theorem exec_release (handle : Handle) (s : Session) :
    exec (release handle) s = (.ok ⟨⟩, s.without handle) := rfl

/-- The error of a node, if it has one. -/
theorem exec_errorOf (n : Nat) (s : Session) :
    exec (errorOf n) s = (bound (s.heap.error? n), s) := by
  rw [errorOf, exec_bind, exec_get]
  simp only
  cases s.heap.error? n <;> rfl

/-! ### Settling -/

/-- Whether the change that an action makes is calm, and what it gives is as expected. -/
def Settles (s : Session) (a : Action α) (P : α → Prop) : Prop :=
  s.Calm [] (exec a s).2 [] ∧ ∀ x, (exec a s).1 = .ok x → P x

theorem Settles.pure {x : α} (h : P x) : Settles s (pure x) P :=
  ⟨.refl s [], fun _ hx => Except.ok.inj hx ▸ h⟩

theorem Settles.throw {refusal : Refusal} : Settles s (throw refusal : Action α) P :=
  ⟨.refl s [], nofun⟩

/-- **Settled actions in a row** settle. -/
theorem Settles.bind {a : Action α} {f : α → Action β} (ha : Settles s a P)
    (hf : ∀ x s', s.Calm [] s' [] → P x → Settles s' (f x) Q) : Settles s (a >>= f) Q := by
  obtain ⟨hcalm, hgives⟩ := ha
  rw [Settles, exec_bind]
  rcases hexec : exec a s with ⟨refusal | x, s'⟩
  · rw [hexec] at hcalm
    exact ⟨hcalm, nofun⟩
  · rw [hexec] at hcalm hgives
    obtain ⟨hcalm', hgives'⟩ := hf x s' hcalm (hgives x rfl)
    exact ⟨hcalm.trans hcalm', hgives'⟩

/-- Looking a name up changes nothing. -/
theorem settles_find {select : Object → Option α} (handle : Handle) :
    Settles s (lookUp select handle) fun _ => True := by
  rw [Settles, exec_lookUp]
  exact ⟨.refl s [], fun _ _ => trivial⟩

/-- Stamps and events lead nowhere. -/
theorem settles_of_fields {a : Action α} (hservices : (exec a s).2.services = s.services)
    (hheap : (exec a s).2.heap = s.heap) (hnames : (exec a s).2.names = s.names) :
    Settles s a fun _ => True := by
  refine ⟨Session.calm_of_has hservices hheap fun o ho => ?_, fun _ _ => trivial⟩
  rwa [Session.Has, hnames] at ho

theorem settles_stamp : Settles s stamp fun _ => True := settles_of_fields rfl rfl rfl

theorem settles_report (events : List Event) : Settles s (report events) fun _ => True :=
  settles_of_fields rfl rfl rfl

theorem settles_get : Settles s get fun _ => True := settles_of_fields rfl rfl rfl

/-- Looking at the error of a node changes nothing. -/
theorem settles_errorOf (n : Nat) : Settles s (errorOf n) fun _ => True := by
  rw [Settles, exec_errorOf]
  exact ⟨.refl s [], fun _ _ => trivial⟩

/-- A known object may be kept under another name as well. -/
theorem settles_keep {handle : Handle} {o : Object} (h : o.KnownTo s) :
    Settles s (keep handle o) fun _ => True := by
  have hhas : ∀ o', (exec (keep handle o) s).2.Has [] o' → o' = o ∨ s.Has [] o' := by
    rintro o' (hmem | ⟨handle', ho'⟩)
    · cases hmem
    · simp only [keep, exec_modify, NameMap.get?_insert] at ho'
      split at ho'
      · exact .inl (Option.some.inj ho').symm
      · exact .inr (Session.has_of_get? ho' [])
  refine ⟨⟨rfl, rfl, ?_, ?_⟩, fun _ _ => trivial⟩
  · rintro i ⟨o', ho', hi⟩
    rcases hhas o' ho' with rfl | ho'
    · exact h.leads i hi
    · exact ⟨o', ho', hi⟩
  · intro n hn
    rcases hhas _ hn with heq | hn
    · exact h.keeps n heq.symm
    · exact hn

theorem settles_ofExcept (result : Except Error α) : Settles s (ofExcept result) fun _ => True := by
  cases result with
  | ok value => exact .pure trivial
  | error e => exact .throw

/-- Actions of one kind for every item of a list. -/
theorem settles_mapM {f : β → Action α} (h : ∀ x s, Settles s (f x) fun _ => True)
    (xs : List β) : Settles s (xs.mapM f) fun _ => True := by
  induction xs generalizing s with
  | nil => exact .pure trivial
  | cons x xs ih =>
      rw [List.mapM_cons]
      exact (h x s).bind fun _ _ _ _ => ih.bind fun _ _ _ _ => .pure trivial

theorem settles_foldlM {f : α → β → Action α} (h : ∀ acc x s, Settles s (f acc x) fun _ => True)
    (xs : List β) (acc : α) : Settles s (xs.foldlM f acc) fun _ => True := by
  induction xs generalizing s acc with
  | nil => exact .pure trivial
  | cons x xs ih =>
      rw [List.foldlM_cons]
      exact (h acc x s).bind fun _ _ _ _ => ih _

/-- A base under a name leads where names lead. -/
theorem settles_base (handle : Handle) :
    Settles s (base handle) fun found => s.Leads [] found.service := by
  rw [Settles, exec_base]
  refine ⟨.refl s [], fun b hb => ?_⟩
  cases hfound : s.base? handle with
  | none =>
      rw [hfound] at hb
      cases hb
  | some found =>
      rw [hfound] at hb
      exact Except.ok.inj hb ▸ Session.leads_of_base? hfound

/-- A query under a name leads where names lead. -/
theorem settles_query (handle : Handle) :
    Settles s (query handle) fun found => s.Leads [] found.base.service := by
  rw [Settles, exec_query]
  refine ⟨.refl s [], fun q hq => ?_⟩
  cases hfound : s.query? handle with
  | none =>
      rw [hfound] at hq
      cases hq
  | some found =>
      rw [hfound] at hq
      exact Except.ok.inj hq ▸ Session.leads_of_query? hfound

/-- Compiling reports quotes, and nothing else happens. -/
theorem settles_compile (e : Expr) : Settles s (compile e) fun _ => True := by
  refine (settles_report _).bind fun _ _ _ _ => ?_
  cases e.compile.result with
  | ok text => exact .pure trivial
  | error reason => exact .throw

theorem settles_fields (named : List (String × Handle)) :
    Settles s (fields named) fun _ => True :=
  settles_mapM (fun _ _ => (settles_find _).bind fun _ _ _ _ => .pure trivial) named

/-! ### Building expressions -/

theorem settles_apply (helper : Helper) (operands : List Expr) :
    Settles s (Recipe.apply helper operands) fun _ => True := by
  rw [Recipe.apply]
  cases helper.build? operands with
  | none => exact .throw
  | some built => exact .pure trivial

theorem settles_applyTimes (helper : Helper) (count : Nat) (operand : Expr) :
    Settles s (Recipe.applyTimes helper count operand) fun _ => True := by
  induction count generalizing s operand with
  | zero => exact .pure trivial
  | succ count ih => exact (settles_apply _ _).bind fun _ _ _ _ => ih _

mutual

/-- **Building an expression** looks names up, stamps fields and reports quotes. -/
theorem settles_build (recipe : Recipe) (s : Session) :
    Settles s recipe.build fun _ => True := by
  cases recipe with
  | newField remoteName => exact settles_stamp.bind fun _ _ _ _ => .pure trivial
  | field handle => exact (settles_find handle).bind fun _ _ _ _ => .pure trivial
  | expr handle => exact settles_find handle
  | literal value => exact .pure trivial
  | formula text => exact .pure trivial
  | compiled recipe =>
      exact (settles_build recipe s).bind fun _ _ _ _ =>
        (settles_compile _).bind fun _ _ _ _ => .pure trivial
  | compare lhs op rhs =>
      exact (settles_build lhs s).bind fun _ _ _ _ =>
        (settles_build rhs _).bind fun _ _ _ _ => .pure trivial
  | call fn args =>
      exact (settles_buildAll args s).bind fun _ _ _ _ => .pure trivial
  | helper h operands =>
      exact (settles_buildAll operands s).bind fun _ _ _ _ => settles_apply _ _
  | nest h count operand =>
      exact (settles_build operand s).bind fun _ _ _ _ => settles_applyTimes _ _ _
  | fold h first others =>
      exact (settles_build first s).bind fun _ _ _ _ =>
        (settles_buildAll others _).bind fun _ _ _ _ =>
          settles_foldlM (fun _ _ _ => settles_apply _ _) _ _

/-- Building expressions in order. -/
theorem settles_buildAll (recipes : List Recipe) (s : Session) :
    Settles s (Recipe.buildAll recipes) fun _ => True := by
  cases recipes with
  | nil => exact .pure trivial
  | cons recipe rest =>
      exact (settles_build recipe s).bind fun _ _ _ _ =>
        (settles_buildAll rest _).bind fun _ _ _ _ => .pure trivial

end

theorem settles_filter (source : FilterSource) : Settles s (filter source) fun _ => True := by
  cases source with
  | text formula => exact .pure trivial
  | expr recipe => exact (settles_build recipe s).bind fun _ _ _ _ => .pure trivial

end Action

end RecordQuery
