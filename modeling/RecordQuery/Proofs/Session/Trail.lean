import RecordQuery.Proofs.Session.Ledger

/-!
# The Expressions of a Run

A recipe is followed part by part, and each part that is followed to its end builds an
expression. The *trail* of a recipe lists the nodes of all expressions that are built on the
way, whether the recipe itself is refused in the end or not. Every step follows the recipes of
its operation, and a run of steps builds what is on their trails.

All fields in these expressions were made in the run, each with a stamp of its own. So one
stamp means one name throughout a run, and expressions that are equal have the same formula.

## Main results

* `Action.enters_build` — following a recipe enters what is on its trail in the ledger;
* `Action.enters_perform` — so does every operation with the trails of its recipes;
* `Session.Ledger.step`, `Session.Ledger.after` — one ledger lists the fields in all that a run
  answers and builds;
* `Session.same_sound` — equality of expressions, and what it says about their formulas.
-/

namespace RecordQuery

open RecordQuery.Action

/-! ### Trails -/

namespace Recipe

/-- The nodes of the expression that is built in the end. -/
def yield (recipe : Recipe) (s : Session) : List Expr :=
  match (exec recipe.build s).1 with
  | .ok e => e.nodes
  | .error _ => []

mutual

/-- The nodes of the expressions that are built while a recipe is followed, those of its parts
before those of the whole. -/
def trail (recipe : Recipe) (s : Session) : List Expr :=
  (match recipe with
    | .newField _ | .field _ | .expr _ | .literal _ | .formula _ => []
    | .compiled part | .nest _ _ part => trail part s
    | .compare lhs _ rhs => trail lhs s ++ onward lhs.build s (trail rhs)
    | .call _ args | .helper _ args => trailAll args s
    | .fold _ first others => trail first s ++ onward first.build s (trailAll others)) ++
    recipe.yield s

/-- The trails of recipes that are followed one after the other, up to one that is refused. -/
def trailAll : List Recipe → Session → List Expr
  | [], _ => []
  | recipe :: rest, s => trail recipe s ++ onward recipe.build s (trailAll rest)

end

end Recipe

/-- The recipes of the expression that a filter is made of, if it is made of one. -/
def FilterSource.recipes : FilterSource → List Recipe
  | .text _ => []
  | .expr recipe => [recipe]

namespace Session

/-- The recipes that an operation follows, one after the other. A filter is not looked at if
there is no query. -/
def recipes (s : Session) : Operation → List Recipe
  | .newExpr recipe _ | .compile recipe => [recipe]
  | .compareExprs a b => [a, b]
  | .filter handle source => if (s.query? handle).isSome then source.recipes else []
  | _ => []

/-- The expressions that steps build, nodes of expressions included. -/
def built (s : Session) : List Step → List Expr
  | [] => []
  | first :: rest =>
    Recipe.trailAll (s.recipes first.operation) s.started ++ (s.step first).2.built rest

end Session

/-! ### Following recipes -/

/-- A helper puts its operands together and adds no field. -/
theorem Helper.fields_build?_subset {helper : Helper} {operands : List Expr} {e : Expr}
    (h : helper.build? operands = some e) : e.fields ⊆ operands.flatMap Expr.fields := by
  cases helper with
  | comparison op =>
      obtain ⟨lhs, rhs, rfl, rfl⟩ := build?_comparison_eq_some_iff.mp h
      simp [Expr.fields_compare]
  | function fn =>
      obtain ⟨-, rfl⟩ := build?_function_eq_some_iff.mp h
      exact fun f hf => List.mem_flatMap.mpr (Expr.mem_fields_call.mp hf)

namespace Action

variable {α β : Type} {made : List Field} {s : Session} {held : α → List Field}
  {held' : β → List Field} {passing : List Expr}

/-- Nothing comes by any more after an action that only books. -/
theorem Enters.books {a : Action α} {f : α → Action β} (ha : Enters made s a held passing)
    (hf : ∀ x s' made', made <+: made' → s'.Ledger made' → held x ⊆ made' →
      Books made' s' (f x) held') : Enters made s (a >>= f) held' passing :=
  (ha.bind hf).mono (List.subset_append_left _ _)

/-- What a recipe builds in the end comes last on its trail. -/
theorem Enters.yield {recipe : Recipe} (h : Enters made s recipe.build Expr.fields passing) :
    Enters made s recipe.build Expr.fields (passing ++ recipe.yield s) := by
  obtain ⟨made', hprefix, hledger, hheld, hpassing⟩ := h
  refine ⟨made', hprefix, hledger, hheld, fun e he => ?_⟩
  rcases List.mem_append.mp he with he | he
  · exact hpassing e he
  · rw [Recipe.yield] at he
    cases hexec : (exec recipe.build s).1 with
    | error refusal =>
        rw [hexec] at he
        cases he
    | ok whole =>
        rw [hexec] at he
        exact List.Subset.trans (Expr.fields_subset_of_mem_nodes he) (hheld whole hexec)

theorem books_apply {helper : Helper} {operands : List Expr} (hs : s.Ledger made)
    (h : operands.flatMap Expr.fields ⊆ made) :
    Books made s (Recipe.apply helper operands) Expr.fields := by
  rw [Recipe.apply]
  cases hbuild : helper.build? operands with
  | none => exact .throw hs
  | some e => exact .pure hs (List.Subset.trans (Helper.fields_build?_subset hbuild) h)

theorem books_applyTimes {helper : Helper} {operand : Expr} (hs : s.Ledger made)
    (h : operand.fields ⊆ made) (count : Nat) :
    Books made s (Recipe.applyTimes helper count operand) Expr.fields := by
  induction count generalizing s made operand with
  | zero => exact .pure hs h
  | succ count ih =>
      have happly : Books made s (Recipe.apply helper [operand]) Expr.fields :=
        books_apply hs (by rwa [List.flatMap_singleton])
      exact happly.bind fun _ _ _ _ hs' he => ih hs' he

theorem books_applyAll {helper : Helper} {first : Expr} {others : List Expr}
    (hs : s.Ledger made) (hfirst : first.fields ⊆ made)
    (hothers : others.flatMap Expr.fields ⊆ made) :
    Books made s (others.foldlM (fun acc other => Recipe.apply helper [acc, other]) first)
      Expr.fields := by
  induction others generalizing s made first with
  | nil => exact .pure hs hfirst
  | cons other others ih =>
      obtain ⟨hother, hothers⟩ := List.append_subset.mp hothers
      rw [List.foldlM_cons]
      refine (books_apply hs ?_).bind fun e _ _ hprefix hs' he =>
        ih hs' he (List.Subset.trans hothers hprefix.subset)
      simpa using ⟨hfirst, hother⟩

mutual

/-- **Following a recipe** enters what is on its trail. -/
theorem enters_build (recipe : Recipe) {s : Session} {made : List Field} (hs : s.Ledger made) :
    Enters made s recipe.build Expr.fields (recipe.trail s) := by
  -- In each case the parts are entered as they are followed, and the whole at the end.
  cases recipe with
  | newField remoteName =>
      refine Enters.yield ?_
      exact (books_stamp hs .text remoteName).bind fun _ _ _ _ hs' hf => .pure hs' hf
  | field handle =>
      refine Enters.yield ?_
      exact (books_field hs handle).bind fun _ _ _ _ hs' hf => .pure hs' hf
  | expr handle =>
      refine Enters.yield ?_
      exact books_expr hs handle
  | literal value | formula text => exact Enters.yield (Books.pure hs (List.nil_subset _))
  | compiled part =>
      refine Enters.yield ((enters_build part hs).books fun e _ _ _ hs' _ => ?_)
      exact (books_compile hs' e).bind fun _ _ _ _ hs'' _ => .pure hs'' (List.nil_subset _)
  | compare lhs op rhs =>
      refine Enters.yield ((enters_build lhs hs).bind fun l s₁ made₁ _ hs₁ hl => ?_)
      refine (enters_build rhs hs₁).books fun r s₂ made₂ hprefix hs₂ hr => .pure hs₂ ?_
      rw [Expr.fields_compare]
      exact List.append_subset.mpr ⟨List.Subset.trans hl hprefix.subset, hr⟩
  | call fn args =>
      refine Enters.yield ((enters_buildAll args hs).books fun es _ _ _ hs' hes => .pure hs' ?_)
      exact fun f hf => hes (List.mem_flatMap.mpr (Expr.mem_fields_call.mp hf))
  | helper h operands =>
      exact Enters.yield
        ((enters_buildAll operands hs).books fun _ _ _ _ hs' hes => books_apply hs' hes)
  | nest h count operand =>
      exact Enters.yield
        ((enters_build operand hs).books fun _ _ _ _ hs' he => books_applyTimes hs' he count)
  | fold h first others =>
      refine Enters.yield ((enters_build first hs).bind fun e s₁ made₁ _ hs₁ he => ?_)
      exact (enters_buildAll others hs₁).books fun _ _ _ hprefix hs₂ hes =>
        books_applyAll hs₂ (List.Subset.trans he hprefix.subset) hes

/-- Following recipes one after the other. -/
theorem enters_buildAll (recipes : List Recipe) {s : Session} {made : List Field}
    (hs : s.Ledger made) :
    Enters made s (Recipe.buildAll recipes) (fun es => es.flatMap Expr.fields)
      (Recipe.trailAll recipes s) := by
  cases recipes with
  | nil => exact Books.pure hs (List.nil_subset _)
  | cons recipe rest =>
      refine (enters_build recipe hs).bind fun e s₁ made₁ _ hs₁ he => ?_
      refine (enters_buildAll rest hs₁).books fun es s₂ made₂ hprefix hs₂ hes => .pure hs₂ ?_
      exact List.append_subset.mpr ⟨List.Subset.trans he hprefix.subset, hes⟩

end

/-! ### Doing operations -/

/-- An answer and what is made with it. -/
theorem Books.give {answer : Answer} {product : Product} (hs : s.Ledger made)
    (hanswer : answer.shown ⊆ made) (hproduct : product.fields ⊆ made) :
    Books made s (Pure.pure (answer, product)) given :=
  .pure hs (List.append_subset.mpr ⟨hanswer, hproduct⟩)

/-- An answer without fields and nothing else. -/
theorem Books.answer {answer : Answer} (hs : s.Ledger made) (h : answer.shown = []) :
    Books made s (Pure.pure (answer, .nothing)) given :=
  .give hs (h ▸ List.nil_subset _) (List.nil_subset _)

theorem books_giveError (hs : s.Ledger made) (n : Nat) : Books made s (giveError n) given :=
  (books_errorOf hs n).bind fun _ _ _ _ hs' _ =>
    .give hs' (List.nil_subset _) (List.nil_subset _)

theorem books_newError (hs : s.Ledger made) (source : ErrorSource) :
    Books made s (newError source) fun _ => [] := by
  have hnode : ∀ (content : NodeContent) (s' : Session) (made' : List Field), s'.Ledger made' →
      Books made' s' (newNode content) fun _ => [] := fun _ _ _ hs' =>
    books_of_eq hs' rfl rfl fun _ _ => List.nil_subset _
  cases source with
  | report report => exact hnode _ s made hs
  | serviceOf handle | externalOf handle =>
      exact (books_find hs handle).bind fun _ _ _ _ hs' _ => hnode _ _ _ hs'
  | again handle => exact books_find hs handle

theorem books_addContext (hs : s.Ledger made) (handle context : Handle) :
    Books made s (addContext handle context) fun _ => [] := by
  refine (books_find hs handle).bind fun e s₁ made₁ _ hs₁ _ => ?_
  refine (books_find hs₁ context).bind fun c s₂ made₂ _ hs₂ _ => ?_
  refine (books_release hs₂ context).bind fun _ s₃ made₃ _ hs₃ _ => books_get_bind ?_
  cases s₃.heap.context s₃.roots e c with
  | error fault => exact .throw hs₃
  | ok heap => exact books_of_eq hs₃ rfl rfl fun _ _ => List.nil_subset _

/-- What is read item by item holds no fields if an item holds none. -/
theorem books_readAll {f : β → Except Error α} (hs : s.Ledger made) (xs : List β) :
    Books made s (xs.mapM fun x => ofExcept (f x)) fun _ => [] := by
  have hread : Books made s (xs.mapM fun x => ofExcept (f x)) fun ys => ys.flatMap fun _ => [] :=
    books_mapM (fun _ _ _ hs' => books_ofExcept hs' fun _ _ => List.nil_subset _) hs xs
  exact hread.imp fun _ => List.nil_subset _

theorem books_response (hs : s.Ledger made) (source : ResponseSource) :
    Books made s (response source) fun _ => [] := by
  cases source with
  | decoded values =>
      exact (books_readAll hs values).bind fun _ _ _ _ hs' _ => .pure hs' (List.nil_subset _)
  | listed entries => exact .pure hs (List.nil_subset _)
  | failing handle =>
      exact (books_find hs handle).bind fun _ _ _ _ hs' _ => .pure hs' (List.nil_subset _)

theorem books_newBase (hs : s.Ledger made) (answer : Response) (labels : List String) :
    Books made s (newBase answer labels) given := by
  refine books_get_bind ?_
  cases Base.build s.services.length labels with
  | error e => exact .throw hs
  | ok base => exact books_of_eq hs rfl rfl fun x hx => by cases hx; exact List.nil_subset _

theorem books_execute (hs : s.Ledger made) (base : Base) (d : Descriptor) :
    Books made s (execute base d) fun _ => [] := by
  refine books_get_bind ?_
  cases s.services[base.service]? with
  | none => exact .throw hs
  | some service =>
      have hsent : Books made s (modify fun session =>
          { session with
            services := session.services.modify base.service (·.receive d.request) } :
          Action Unit) fun _ => [] := books_of_eq hs rfl rfl fun _ _ => List.nil_subset _
      refine hsent.bind fun _ s₁ made₁ _ hs₁ _ => ?_
      have hanswer : Books made₁ s₁ (answer service.response) fun _ => [] := by
        cases service.response with
        | records found => exact .pure hs₁ (List.nil_subset _)
        | failure n =>
            exact (books_errorOf hs₁ n).bind fun _ _ _ _ hs' _ => .pure hs' (List.nil_subset _)
      refine hanswer.bind fun _ s₂ made₂ _ hs₂ _ => ?_
      exact (books_report hs₂ _).bind fun _ _ _ _ hs₃ _ =>
        books_ofExcept hs₃ fun _ _ => List.nil_subset _

theorem books_executeRows (hs : s.Ledger made) (base : Base) (d : Descriptor) :
    Books made s (executeRows base d) given :=
  (books_execute hs base d).bind fun _ _ _ _ hs' _ =>
    .give hs' (List.nil_subset _) (List.nil_subset _)

theorem books_executeAs (hs : s.Ledger made) (base : Base) (d : Descriptor) (target : Target) :
    Books made s (executeAs base d target) given :=
  (books_execute hs base d).bind fun rows _ _ _ hs₁ _ =>
    (books_readAll hs₁ rows).bind fun _ _ _ _ hs' _ => .answer hs' rfl

theorem books_executeForError (hs : s.Ledger made) (base : Base) (d : Descriptor) :
    Books made s (executeForError base d) given := by
  refine (books_executeRows hs base d).tryCatch fun refusal s' made' hs' => books_get_bind ?_
  split
  · exact .give hs' (List.nil_subset _) (List.nil_subset _)
  · exact .throw hs'

/-- A setting is made with fields that the ledger lists. -/
theorem books_configure {q : Query} {setting : Setting} (hs : s.Ledger made)
    (hq : q.fields ⊆ made) (hsetting : setting.fields ⊆ made) :
    Books made s (configure q setting) given := by
  refine (books_report hs _).bind fun _ s' made' hprefix hs' _ => ?_
  cases hset : q.set setting with
  | error reason => exact .throw hs'
  | ok changed =>
      refine .give hs' (List.nil_subset _) (List.Subset.trans (Query.fields_set_subset hset) ?_)
      exact List.Subset.trans (List.append_subset.mpr ⟨hq, hsetting⟩) hprefix.subset

theorem enters_filterSource (hs : s.Ledger made) (source : FilterSource) :
    Enters made s (filter source) (fun _ => []) (Recipe.trailAll source.recipes s) := by
  cases source with
  | text formula => exact Books.pure hs (List.nil_subset _)
  | expr recipe =>
      exact (enters_build recipe hs).bind fun _ _ _ _ hs' _ => Books.pure hs' (List.nil_subset _)

/-- Setting a filter follows the recipe that the filter has, once there is a query. -/
theorem enters_filter (hs : s.Ledger made) (handle : Handle) (source : FilterSource) :
    Enters made s (perform (.filter handle source)) given
      (Recipe.trailAll (s.recipes (.filter handle source)) s) := by
  rw [perform, Session.recipes, Enters, exec_bind, exec_query]
  cases hfound : s.query? handle with
  | none =>
      -- The operation is refused before the recipe is looked at.
      exact Books.throw hs
  | some q =>
      have hq : q.fields ⊆ made :=
        hs.of_select (by rintro ⟨⟩ x ⟨⟩; exact List.Subset.refl _) hfound
      exact (enters_filterSource hs source).books fun _ _ _ hprefix hs' _ =>
        books_configure hs' (List.Subset.trans hq hprefix.subset) (List.nil_subset _)

/-- **Every operation** enters what is on the trails of its recipes, and the ledger lists the
fields in its answer and in what it makes. -/
theorem enters_perform (hs : s.Ledger made) (op : Operation) :
    Enters made s (perform op) given (Recipe.trailAll (s.recipes op) s) := by
  cases op with
  | newField type remoteName outlined =>
      exact (books_stamp hs type remoteName).bind fun _ _ _ _ hs' hf => .give hs' hf hf
  | copyField handle | newSort handle direction =>
      exact (books_field hs handle).bind fun _ _ _ _ hs' hf => .give hs' hf hf
  | compareFields a b =>
      refine (books_field hs a).bind fun f s₁ made₁ _ hs₁ hf => ?_
      refine (books_field hs₁ b).bind fun g s₂ made₂ hprefix hs₂ hg => ?_
      refine .give hs₂ (List.cons_subset.mpr ⟨?_, hg⟩) (List.nil_subset _)
      exact hprefix.subset (hf List.mem_cons_self)
  | countFields handles =>
      exact (books_mapM (fun _ _ _ hs' => books_field hs' _) hs handles).bind
        fun _ _ _ _ hs' _ => .answer hs' rfl
  | newTable remoteName named | newProjection named =>
      refine (books_fields hs named).bind fun entries _ _ _ hs' h => ?_
      have hmade := List.Subset.trans (NameMap.items_ofList_subset entries) h
      exact .give hs' hmade hmade
  | tableField handle name =>
      refine (books_table hs handle).bind fun table _ _ _ hs' h => ?_
      cases hfound : table.field? name with
      | none => exact .answer hs' rfl
      | some f =>
          have hf : [f] ⊆ _ := List.cons_subset.mpr
            ⟨h (NameMap.mem_items_of_get? hfound), List.nil_subset _⟩
          exact .give hs' hf hf
  | projectTable handle names =>
      refine (books_table hs handle).bind fun table s₁ made₁ _ hs₁ h => ?_
      have hchosen : ∀ p, table.project names = .ok p → p.fields.items ⊆ made₁ := fun p hp =>
        List.Subset.trans (Table.items_project_subset hp) h
      exact (books_ofExcept hs₁ hchosen).bind fun p _ _ _ hs' hp => .give hs' hp hp
  | wholeProjection handle =>
      exact (books_table hs handle).bind fun _ _ _ _ hs' h => .give hs' h h
  | newSchema handles =>
      refine (books_mapM (fun _ _ _ hs' => books_table hs' _) hs handles).bind
        fun tables _ _ _ hs' h => ?_
      have hmade := List.Subset.trans (Schema.fields_ofList_subset tables) h
      exact .give hs' hmade hmade
  | schemaTable handle remoteName =>
      refine (books_schema hs handle).bind fun schema _ _ _ hs' h => ?_
      cases hfound : schema.table? remoteName with
      | none => exact .answer hs' rfl
      | some table =>
          have htable := List.Subset.trans (Schema.fields_table?_subset hfound) h
          exact .give hs' htable htable
  | insertField handle name inserted =>
      refine (books_projection hs handle).bind fun p s₁ made₁ _ hs₁ hp => ?_
      refine (books_field hs₁ inserted).bind fun f s₂ made₂ hprefix hs₂ hf => ?_
      have hchanged : (p.insert name f).fields.items ⊆ made₂ :=
        List.Subset.trans (p.fields.items_insert_subset name f)
          (List.append_subset.mpr ⟨hf, List.Subset.trans hp hprefix.subset⟩)
      refine Books.bind (books_keep hs₂ hchanged) fun _ _ _ hprefix' hs₃ _ => ?_
      have hgiven := List.Subset.trans hchanged hprefix'.subset
      exact .give hs₃ hgiven hgiven
  | projectedField handle name =>
      refine (books_projection hs handle).bind fun p _ _ _ hs' hp => ?_
      refine .give hs' (fun f hf => hp ?_) (List.nil_subset _)
      exact NameMap.mem_items_of_get? (Option.mem_toList.mp hf)
  | compareProjections a b | compareSorts a b | compareRows a b =>
      exact (books_find hs a).bind fun _ _ _ _ hs₁ _ =>
        (books_find hs₁ b).bind fun _ _ _ _ hs₂ _ => .answer hs₂ rfl
  | newExpr recipe outlined =>
      exact (enters_build recipe hs).bind fun _ _ _ _ hs' he => Books.give hs' he he
  | compile recipe =>
      refine (enters_build recipe hs).bind fun e _ _ _ hs' _ => ?_
      exact (books_compile hs' e).bind fun _ _ _ _ hs'' _ => .answer hs'' rfl
  | compareExprs a b =>
      refine (enters_build a hs).bind fun _ _ _ _ hs₁ _ => ?_
      exact (enters_build b hs₁).bind fun _ _ _ _ hs₂ _ => Books.answer hs₂ rfl
  | compareFormulas a b => exact Books.answer hs rfl
  | newBase source labels =>
      exact (books_response hs source).bind fun answer _ _ _ hs' _ =>
        books_newBase hs' answer labels
  | copyBase handle =>
      exact (books_find hs handle).bind fun _ _ _ _ hs' _ =>
        .give hs' (List.nil_subset _) (List.nil_subset _)
  | received handle =>
      exact (books_find hs handle).bind fun _ _ _ _ hs' _ => books_get_bind (.answer hs' rfl)
  | newQuery baseHandle tableHandle chosen =>
      refine (books_find hs baseHandle).bind fun base s₁ made₁ _ hs₁ _ => ?_
      refine (books_table hs₁ tableHandle).bind fun table s₂ made₂ _ hs₂ htable => ?_
      have hchosen : Books made₂ s₂ (chosen.mapM projection) fun selected =>
          selected.elim [] (·.fields.items) := by
        cases chosen with
        | none => exact .pure hs₂ (List.nil_subset _)
        | some handle =>
            exact Books.bind (books_projection hs₂ handle) fun _ _ _ _ hs' hp => .pure hs' hp
      refine hchosen.bind fun selected s₃ made₃ hprefix hs₃ hselected => ?_
      have hmade : (Query.new base table selected).fields ⊆ made₃ := by
        rw [Query.fields, Query.new, List.map_nil, List.append_nil]
        exact List.append_subset.mpr ⟨List.Subset.trans htable hprefix.subset, hselected⟩
      exact .give hs₃ hmade hmade
  | filter handle source => exact enters_filter hs handle source
  | orderBy handle sorts =>
      refine (books_query hs handle).bind fun q s₁ made₁ _ hs₁ hq => ?_
      refine (books_mapM (fun _ _ _ hs' => books_sort hs' _) hs₁ sorts).bind
        fun keys s₂ made₂ hprefix hs₂ hkeys => ?_
      refine books_configure hs₂ (List.Subset.trans hq hprefix.subset) ?_
      rwa [Setting.fields, List.map_eq_flatMap]
  | view handle name =>
      exact (books_query hs handle).bind fun _ _ _ _ hs' hq =>
        books_configure hs' hq (List.nil_subset _)
  | build handle =>
      refine (books_query hs handle).bind fun q _ _ _ hs' hq => ?_
      have hmade := List.Subset.trans q.fields_projection_subset hq
      exact .give hs' hmade hmade
  | compareDescriptors a b =>
      refine (books_descriptor hs a).bind fun d s₁ made₁ _ hs₁ hd => ?_
      refine (books_descriptor hs₁ b).bind fun d' s₂ made₂ hprefix hs₂ hd' => ?_
      refine .give hs₂ (List.append_subset.mpr ⟨?_, hd'⟩) (List.nil_subset _)
      exact List.Subset.trans hd hprefix.subset
  | execute baseHandle handle =>
      exact (books_find hs baseHandle).bind fun base _ _ _ hs₁ _ =>
        (books_find hs₁ handle).bind fun d _ _ _ hs₂ _ => books_executeRows hs₂ base d
  | run handle =>
      exact (books_find hs handle).bind fun q _ _ _ hs' _ =>
        books_executeRows hs' q.base q.build
  | runAs handle target =>
      exact (books_find hs handle).bind fun q _ _ _ hs' _ =>
        books_executeAs hs' q.base q.build target
  | executeForError baseHandle handle =>
      exact (books_find hs baseHandle).bind fun base _ _ _ hs₁ _ =>
        (books_find hs₁ handle).bind fun d _ _ _ hs₂ _ => books_executeForError hs₂ base d
  | runForError handle =>
      exact (books_find hs handle).bind fun q _ _ _ hs' _ =>
        books_executeForError hs' q.base q.build
  | newRow id entries => exact Books.give hs (List.nil_subset _) (List.nil_subset _)
  | rowValue handle name | writeRow handle =>
      exact (books_find hs handle).bind fun _ _ _ _ hs' _ => .answer hs' rfl
  | readRow handle name accessor | deserializeRow handle target =>
      exact (books_find hs handle).bind fun _ _ _ _ hs₁ _ =>
        Books.bind (books_ofExcept hs₁ fun _ _ => List.nil_subset _) fun _ _ _ _ hs₂ _ =>
          .answer hs₂ rfl
  | newError source =>
      exact (books_newError hs source).bind fun n _ _ _ hs' _ => books_giveError hs' n
  | addContext handle context =>
      exact (books_addContext hs handle context).bind fun n _ _ _ hs' _ => books_giveError hs' n
  | outlineError handle =>
      exact (books_find hs handle).bind fun n _ _ _ hs₁ _ =>
        (books_errorOf hs₁ n).bind fun _ _ _ _ hs₂ _ => .answer hs₂ rfl

/-- Rows that are kept hold no fields. -/
theorem books_keepRows (hs : s.Ledger made) (name : Handle) (numbered : List (Row × Nat)) :
    Books made s
      (numbered.forM fun entry => keep (name ++ "." ++ toString entry.2) (.row entry.1))
      fun _ => [] := by
  induction numbered generalizing s made with
  | nil => exact .pure hs (List.nil_subset _)
  | cons entry rest ih =>
      have hrow : (Object.row entry.1).fields ⊆ made := List.nil_subset _
      exact (books_keep hs hrow).bind fun _ _ _ _ hs' _ => ih hs'

/-- What was made may be kept if the ledger lists its fields. -/
theorem books_keepNamed {product : Product} (hs : s.Ledger made) (h : product.fields ⊆ made)
    (name : Option Handle) : Books made s (keepNamed name product) fun _ => [] := by
  cases name with
  | none => exact .pure hs (List.nil_subset _)
  | some name =>
      cases product with
      | nothing => exact .pure hs (List.nil_subset _)
      | object o => exact books_keep hs h
      | rows decoded => exact books_keepRows hs name decoded.zipIdx

theorem enters_stepAction (hs : s.Ledger made) (step : Step) :
    Enters made s (Session.stepAction step) Answer.shown
      (Recipe.trailAll (s.recipes step.operation) s) := by
  refine (enters_perform hs step.operation).books fun x s' made' _ hs' hx => ?_
  obtain ⟨hanswer, hproduct⟩ := List.append_subset.mp hx
  exact (books_keepNamed hs' hproduct _).bind fun _ _ _ hprefix hs'' _ =>
    .pure hs'' (List.Subset.trans hanswer hprefix.subset)

end Action

/-! ### Whole runs -/

namespace Session

variable {s : Session} {made : List Field}

/-- **A step** adds the fields that it makes to the ledger, which then lists the fields in its
answer and in the expressions that it builds. -/
theorem Ledger.step (hs : s.Ledger made) (step : Step) :
    ∃ made', made <+: made' ∧ (s.step step).2.Ledger made' ∧
      (∀ answer, (s.step step).1.result = .ok answer → answer.shown ⊆ made') ∧
      ∀ e ∈ Recipe.trailAll (s.recipes step.operation) s.started, e.fields ⊆ made' :=
  enters_stepAction (hs.of_eq rfl rfl : s.started.Ledger made) step

/-- **One ledger for a whole run**: it goes on from the ledger before and lists the fields in
all answers and in all expressions that are built. -/
theorem Ledger.after (hs : s.Ledger made) (steps : List Step) :
    ∃ made', made <+: made' ∧ (s.after steps).Ledger made' ∧
      (∀ outcome ∈ s.runFrom steps, ∀ answer, outcome.result = .ok answer →
        answer.shown ⊆ made') ∧
      ∀ e ∈ s.built steps, e.fields ⊆ made' := by
  induction steps generalizing s made with
  | nil =>
      exact ⟨made, List.prefix_rfl, hs, fun _ houtcome => absurd houtcome List.not_mem_nil,
        fun _ he => absurd he List.not_mem_nil⟩
  | cons first rest ih =>
      obtain ⟨made₁, hprefix₁, hs₁, hanswer, htrail⟩ := hs.step first
      obtain ⟨made₂, hprefix₂, hs₂, hanswers, hbuilt⟩ := ih hs₁
      refine ⟨made₂, hprefix₁.trans hprefix₂, hs₂, fun outcome houtcome answer hok => ?_,
        fun e he => ?_⟩
      · rcases List.mem_cons.mp houtcome with rfl | houtcome
        · exact List.Subset.trans (hanswer answer hok) hprefix₂.subset
        · exact hanswers outcome houtcome answer hok
      · rcases List.mem_append.mp he with he | he
        · exact List.Subset.trans (htrail e he) hprefix₂.subset
        · exact hbuilt e he

/-- Fields of one making have one name in all expressions of a run. -/
theorem agree_of_built {steps : List Step} {a b : Expr} (ha : a ∈ empty.built steps)
    (hb : b ∈ empty.built steps) : a.Agree b := by
  obtain ⟨made, -, hledger, -, hbuilt⟩ := Ledger.empty.after steps
  intro f hf g hg hstamp
  rw [hledger.eq_of_stamp (hbuilt a ha hf) (hbuilt b hb hg) hstamp]

/-- **Equality of expressions is sound for formulas.** Equality is symmetric and transitive,
and an expression is equal to itself exactly when no float literal in it is something that is
no number. Of any two expressions that one run builds, equal ones compile to the same text, or
fail in the same way, with the same warnings in the same order. -/
theorem same_sound (steps : List Step) :
    (∀ a b : Expr, a.same b = true → b.same a = true) ∧
      (∀ a b c : Expr, a.same b = true → b.same c = true → a.same c = true) ∧
      (∀ a : Expr, a.same a = true ↔
        ∀ value, .literal (.float value) ∈ a.nodes → value.isNaN = false) ∧
      ∀ a ∈ empty.built steps, ∀ b ∈ empty.built steps, a.same b = true →
        a.compile.result = b.compile.result ∧ a.compile.events = b.compile.events := by
  refine ⟨fun _ _ => Expr.same_symm, fun _ _ _ => Expr.same_trans, Expr.same_self_iff, ?_⟩
  intro a ha b hb h
  have hcompile := Expr.compile_eq_of_same (agree_of_built ha hb) h
  exact ⟨congrArg Compilation.result hcompile, congrArg Compilation.events hcompile⟩

/-- Two comparisons of one field with zeros of both signs are equal and have one formula. -/
theorem same_sound_zeros :
    let against : Bool → Recipe := fun negative =>
      .helper (.comparison .eq) [.field "count", .literal (.float (.zero negative))]
    let comparison : Bool → Expr := fun negative =>
      .compare (.field ⟨0, .number, "Count"⟩) .eq (.literal (.float (.zero negative)))
    let steps : List Step :=
      [⟨.newField .number "Count" false, some "count"⟩, ⟨.newExpr (against false) false, none⟩,
        ⟨.compile (against true), none⟩]
    (comparison false ∈ empty.built steps ∧ comparison true ∈ empty.built steps ∧
        (comparison false).same (comparison true) = true ∧
        comparison false ≠ comparison true) ∧
      (comparison false).compile.result = (comparison true).compile.result ∧
      (comparison false).compile.events = (comparison true).compile.events := by
  intro against comparison steps
  have hbuilt : empty.built steps =
      [.field ⟨0, .number, "Count"⟩, .literal (.float (.zero false))] ++
        (comparison false).nodes ++
        [.field ⟨0, .number, "Count"⟩, .literal (.float (.zero true))] ++
        (comparison true).nodes := by
    rfl
  have hplus : comparison false ∈ empty.built steps := by
    rw [hbuilt]
    simp [Expr.self_mem_nodes]
  have hminus : comparison true ∈ empty.built steps := by
    rw [hbuilt]
    simp [Expr.self_mem_nodes]
  have hsame : (comparison false).same (comparison true) = true := by decide +kernel
  have hne : comparison false ≠ comparison true := by
    simp [comparison, Binary.zero]
  have hsound := (same_sound steps).2.2.2 (comparison false) hplus (comparison true) hminus hsame
  exact ⟨⟨hplus, hminus, hsame, hne⟩, hsound⟩

end Session

end RecordQuery
