import RecordQuery.Proofs.Session.Explains

/-!
# Descent of Fields

Operations carry fields from place to place and change none: what an operation gives goes back
to the makings in its lineage. A step keeps what came of its operation or loses a name, so the
lineages under names stay right.

## Main results

* `Action.tracks_carries` — operations that make no fields;
* `Action.descends_perform` — every operation gives fields of its lineage.
-/

namespace RecordQuery

namespace Action

/-! ### Doing operations -/

section

variable {α β : Type} {made : Field → Making → Prop} {held : Handle → Lineage} {s : Session}
  {l : Lineage}

/-- Whether a lineage explains an answer and the object that is made with it. -/
def Gives (made : Field → Making → Prop) (l : Lineage) (result : Answer × Product) : Prop :=
  l.Explains made result.1.fieldAt ∧ ∀ o, result.2 = .object o → l.Explains made o.fieldAt

/-- An answer shows the object that is made with it. -/
theorem gives_object {answer : Answer} {o : Object} (hshown : answer.object? = some o)
    (h : l.Explains made o.fieldAt) : Gives made l (answer, .object o) := by
  refine ⟨?_, fun o' ho' => Product.object.inj ho' ▸ h⟩
  have hfieldAt : ∀ path, answer.fieldAt path = o.fieldAt path := by
    intro path
    have hbind : answer.object?.bind (·.fieldAt path) = o.fieldAt path := by rw [hshown]; rfl
    rw [← hbind]
    cases answer <;> first | rfl | cases hshown
  exact fun path f hf => h path f (hfieldAt path ▸ hf)

/-- Two fields are explained by the lineages of both. -/
theorem explains_fields {a b : Lineage} {f g : Field} (hf : a.Explains made f.fieldAt)
    (hg : b.Explains made g.fieldAt) :
    (Lineage.ofOperands [a, b]).Explains made (Answer.fields f g).fieldAt := by
  rintro (_ | ⟨_ | _ | _ | _ | position, path⟩) x hx
  case cons.operand.zero => exact hf path x hx
  case cons.operand.succ.zero => exact hg path x hx
  all_goals cases hx

/-- Tables that are found under names are explained by the lineages of the names. -/
theorem explains_tables {handles : List Handle} {tables : List Table} (hs : s.Explained made held)
    (h : List.Forall₂ (fun handle table =>
      (s.names.get? handle).bind Object.table? = some table) handles tables) (step : Nat) :
    ((Operation.newSchema handles).lineage s held step).Explains made
      (Schema.ofList tables).fieldAt := by
  refine Lineage.explains_schema_iff.mpr (.ofList (fun _ _ => Key.table.inj) ?_)
  induction h with
  | nil => exact .nil
  | @cons handle table _ _ hfound _ ih =>
      rw [List.map_cons, List.filterMap_cons, hfound]
      refine .cons ⟨rfl, ?_⟩ ih
      obtain ⟨o, ho, htable⟩ := Option.bind_eq_some_iff.mp hfound
      have hwhole : o = .table table := by
        cases o <;> cases htable
        rfl
      exact hs handle _ (hwhole ▸ ho)

/-- An answer without fields and nothing that holds any. -/
theorem gives_blank {answer : Answer} {product : Product}
    (hanswer : ∀ path, answer.fieldAt path = none)
    (hproduct : ∀ o, product = .object o → ∀ path, o.fieldAt path = none) :
    Gives made l (answer, product) :=
  ⟨.of_none hanswer, fun o ho => .of_none (hproduct o ho)⟩

/-- An answer without fields alone. -/
theorem gives_answer {answer : Answer} (hanswer : ∀ path, answer.fieldAt path = none) :
    Gives made l (answer, .nothing) :=
  gives_blank hanswer nofun

/-- What is looked at and holds no fields. -/
theorem tracks_find {select : Object → Option α} (hs : s.Explained made held) (handle : Handle) :
    Tracks made held s (lookUp select handle) fun _ s' => s' = s :=
  (tracks_lookUp hs handle).imp fun _ _ h => h.1

theorem tracks_ofExcept {result : Except Error α} (hs : s.Explained made held) :
    Tracks made held s (ofExcept result) fun x s' => s' = s ∧ result = .ok x := by
  cases result with
  | ok value => exact .pure hs ⟨rfl, rfl⟩
  | error e => exact .throw hs

theorem tracks_errorOf (hs : s.Explained made held) (n : Nat) :
    Tracks made held s (errorOf n) fun _ _ => True := by
  refine tracks_get_bind ?_
  cases s.heap.error? n with
  | none => exact .throw hs
  | some e => exact .pure hs trivial

theorem tracks_giveError (hs : s.Explained made held) (n : Nat) :
    Tracks made held s (giveError n) fun result _ => Gives made l result :=
  (tracks_errorOf hs n).bind fun _ _ hs' _ =>
    .pure hs' (gives_blank (fun _ => rfl) (by rintro o ⟨⟩ path; rfl))

theorem tracks_newError (hs : s.Explained made held) (source : ErrorSource) :
    Tracks made held s (newError source) fun _ _ => True := by
  have hnode : ∀ (content : NodeContent) (s' : Session), s'.Explained made held →
      Tracks made held s' (newNode content) fun _ _ => True :=
    fun _ _ hs' => tracks_of_names hs' rfl fun _ _ => trivial
  cases source with
  | report report => exact hnode _ s hs
  | serviceOf handle | externalOf handle =>
      exact (tracks_find hs handle).bind fun _ _ hs' _ => hnode _ _ hs'
  | again handle => exact (tracks_find hs handle).imp fun _ _ _ => trivial

theorem tracks_release (hs : s.Explained made held) (handle : Handle) :
    Tracks made held s (release handle) fun _ _ => True := by
  refine ⟨fun handle' o ho => hs handle' o ?_, fun _ _ => trivial⟩
  simp only [exec_release, Session.without, NameMap.get?_erase] at ho
  split at ho
  · cases ho
  · exact ho

theorem tracks_addContext (hs : s.Explained made held) (handle context : Handle) :
    Tracks made held s (addContext handle context) fun _ _ => True := by
  refine (tracks_find hs handle).bind fun e s₁ hs₁ _ => ?_
  refine (tracks_find hs₁ context).bind fun c s₂ hs₂ _ => ?_
  refine (tracks_release hs₂ context).bind fun _ s₃ hs₃ _ => tracks_get_bind ?_
  cases s₃.heap.context s₃.roots e c with
  | error fault => exact .throw hs₃
  | ok heap => exact tracks_of_names hs₃ rfl fun _ _ => trivial

/-- What is read item by item changes nothing. -/
theorem tracks_readAll {f : β → Except Error α} (hs : s.Explained made held) (xs : List β) :
    Tracks made held s (xs.mapM fun x => ofExcept (f x)) fun _ _ => True :=
  (tracks_mapM (R := fun x y => f x = .ok y) hs (fun _ => tracks_ofExcept hs) xs).imp
    fun _ _ _ => trivial

theorem tracks_response (hs : s.Explained made held) (source : ResponseSource) :
    Tracks made held s (response source) fun _ _ => True := by
  cases source with
  | decoded values => exact (tracks_readAll hs values).bind fun _ _ hs' _ => .pure hs' trivial
  | listed entries => exact .pure hs trivial
  | failing handle => exact (tracks_find hs handle).bind fun _ _ hs' _ => .pure hs' trivial

theorem tracks_newBase (hs : s.Explained made held) (answer : Response) (labels : List String) :
    Tracks made held s (newBase answer labels) fun result _ => Gives made l result := by
  refine tracks_get_bind ?_
  cases Base.build s.services.length labels with
  | error e => exact .throw hs
  | ok base =>
      refine tracks_of_names hs rfl fun x hx => ?_
      cases hx
      exact gives_blank (fun _ => rfl) (by rintro o ⟨⟩ path; rfl)

theorem tracks_execute (hs : s.Explained made held) (base : Base) (d : Descriptor) :
    Tracks made held s (execute base d) fun _ _ => True := by
  refine tracks_get_bind ?_
  cases s.services[base.service]? with
  | none => exact .throw hs
  | some service =>
      have hsent : Tracks made held s (modify fun session =>
          { session with
            services := session.services.modify base.service (·.receive d.request) } :
          Action Unit) fun _ _ => True := tracks_of_names hs rfl fun _ _ => trivial
      refine hsent.bind fun _ s₁ hs₁ _ => ?_
      have hanswer : Tracks made held s₁ (answer service.response) fun _ _ => True := by
        cases service.response with
        | records found => exact .pure hs₁ trivial
        | failure n => exact (tracks_errorOf hs₁ n).bind fun _ _ hs' _ => .pure hs' trivial
      refine hanswer.bind fun found s₂ hs₂ _ => ?_
      have hreport : ∀ events, Tracks made held s₂ (report events) fun _ _ => True :=
        fun _ => tracks_of_names hs₂ rfl fun _ _ => trivial
      exact (hreport _).bind fun _ _ hs₃ _ => (tracks_ofExcept hs₃).imp fun _ _ _ => trivial

theorem tracks_executeRows (hs : s.Explained made held) (base : Base) (d : Descriptor) :
    Tracks made held s (executeRows base d) fun result _ => Gives made l result :=
  (tracks_execute hs base d).bind fun _ _ hs' _ =>
    .pure hs' (gives_blank (fun _ => rfl) nofun)

theorem tracks_executeAs (hs : s.Explained made held) (base : Base) (d : Descriptor)
    (target : Target) :
    Tracks made held s (executeAs base d target) fun result _ => Gives made l result :=
  (tracks_execute hs base d).bind fun rows _ hs₁ _ =>
    (tracks_readAll hs₁ rows).bind fun _ _ hs' _ => .pure hs' (gives_answer fun _ => rfl)

theorem tracks_executeForError (hs : s.Explained made held) (base : Base) (d : Descriptor) :
    Tracks made held s (executeForError base d) fun result _ => Gives made l result := by
  refine (tracks_executeRows hs base d).tryCatch fun refusal s' hs' => tracks_get_bind ?_
  split
  · exact .pure hs' (gives_blank (fun _ => rfl) (by rintro o ⟨⟩ path; rfl))
  · exact .throw hs'

theorem tracks_configure (hs : s.Explained made held) (q : Query) (setting : Setting) :
    Tracks made held s (configure q setting) fun result _ => Gives made l result := by
  have hreport : Tracks made held s (report setting.events) fun _ _ => True :=
    tracks_of_names hs rfl fun _ _ => trivial
  refine hreport.bind fun _ s' hs' _ => ?_
  cases q.set setting with
  | error reason => exact .throw hs'
  | ok changed => exact .pure hs' (gives_blank (fun _ => rfl) (by rintro o ⟨⟩ path; rfl))

theorem tracks_filter (hs : s.Explained made held) (source : FilterSource) :
    Tracks made held s (filter source) fun _ _ => True := by
  cases source with
  | text formula => exact .pure hs trivial
  | expr recipe =>
      exact (tracks_recipe recipe hs).bind fun _ _ hs' _ => .pure hs' trivial

/-- Telling two things under names apart gives no field. -/
theorem tracks_compare {γ : Type} {select : Object → Option α} {select' : Object → Option γ}
    {f : α → γ → Answer} (hs : s.Explained made held) (a b : Handle)
    (hblank : ∀ x y path, (f x y).fieldAt path = none) :
    Tracks made held s (do return (f (← lookUp select a) (← lookUp select' b), .nothing))
      fun result _ => Gives made l result :=
  (tracks_find hs a).bind fun x _ hs₁ _ =>
    (tracks_find hs₁ b).bind fun y _ hs₂ _ => .pure hs₂ (gives_answer (hblank x y))

end

end Action

/-- Whether an operation makes no field that it gives out, and changes no object. -/
def Operation.Carries : Operation → Prop
  | .newField _ _ _ | .newExpr _ _ | .insertField _ _ _ => False
  | _ => True

namespace Table

variable {made : Field → Making → Prop} {l : Lineage} {table : Table}

/-- Declared fields that are chosen are explained by the lineage of the table. -/
theorem explains_projectFrom {names : List String} {chosen p : Projection}
    (htable : l.Explains made table.fieldAt) (hchosen : l.Explains made chosen.fieldAt)
    (h : table.projectFrom chosen names = .ok p) : l.Explains made p.fieldAt := by
  induction names generalizing chosen with
  | nil =>
      cases h
      exact hchosen
  | cons name rest ih =>
      rw [projectFrom] at h
      cases hfield : table.field? name with
      | none =>
          rw [hfield] at h
          cases h
      | some f =>
          rw [hfield] at h
          refine ih (Lineage.explains_projection_iff.mpr fun other g hg => ?_) h
          rw [Projection.insert, NameMap.get?_insert] at hg
          split at hg
          · next heq =>
            cases hg
            exact Lineage.explains_projection_iff.mp htable other f (heq ▸ hfield)
          · exact Lineage.explains_projection_iff.mp hchosen other g hg

end Table

namespace Action

variable {made : Field → Making → Prop} {held : Handle → Lineage} {s : Session}

/-- Operations that make no fields carry the fields that are there from place to place. -/
theorem tracks_carries (hs : s.Explained made held) {op : Operation} (hop : op.Carries)
    (step : Nat) :
    Tracks made held s (perform op) fun result _ =>
      Gives made (op.lineage s held step) result := by
  cases op with
  | newField | newExpr | insertField => exact hop.elim
  | copyField handle =>
      refine (tracks_field hs handle).bind ?_
      rintro f s' - ⟨rfl, hf⟩
      exact .pure hs (gives_object rfl hf)
  | newSort handle direction =>
      refine (tracks_field hs handle).bind ?_
      rintro f s' - ⟨rfl, hf⟩
      exact .pure hs (gives_object rfl hf)
  | compareFields a b =>
      refine (tracks_field hs a).bind ?_
      rintro f s' - ⟨rfl, hf⟩
      refine (tracks_field hs b).bind ?_
      rintro g s' - ⟨rfl, hg⟩
      exact .pure hs ⟨explains_fields hf hg, nofun⟩
  | countFields handles =>
      refine (tracks_mapM (R := fun _ _ => True) hs
        (fun _ => (tracks_find hs _).imp fun _ _ h => ⟨h, trivial⟩) handles).bind ?_
      exact fun _ _ hs' _ => .pure hs' (gives_answer fun _ => rfl)
  | newTable remoteName named | newProjection named =>
      refine (tracks_fields hs named).bind ?_
      rintro entries s' - ⟨rfl, hentries⟩
      refine .pure hs (gives_object rfl (Lineage.explains_projection_iff.mpr ?_))
      exact .ofList (fun _ _ => Key.entry.inj) hentries
  | tableField handle name =>
      refine (tracks_table hs handle).bind ?_
      rintro table s' - ⟨rfl, htable⟩
      cases hfound : table.field? name with
      | none => exact .pure hs (gives_answer fun _ => rfl)
      | some f =>
          have hf := Lineage.explains_projection_iff.mp htable name f hfound
          exact .pure hs (gives_object rfl hf)
  | projectTable handle names =>
      refine (tracks_table hs handle).bind ?_
      rintro table s' - ⟨rfl, htable⟩
      refine (tracks_ofExcept hs).bind ?_
      rintro p s' - ⟨rfl, hp⟩
      refine .pure hs (gives_object rfl (Table.explains_projectFrom htable ?_ hp))
      exact Lineage.explains_projection_iff.mpr nofun
  | wholeProjection handle =>
      refine (tracks_table hs handle).bind ?_
      rintro table s' - ⟨rfl, htable⟩
      exact .pure hs (gives_object rfl htable)
  | newSchema handles =>
      refine (tracks_mapM hs (fun _ => tracks_lookUp hs _) handles).bind ?_
      rintro tables s' - ⟨rfl, htables⟩
      exact .pure hs (gives_object rfl (explains_tables hs htables step))
  | schemaTable handle remoteName =>
      refine (tracks_schema hs handle).bind ?_
      rintro schema s' - ⟨rfl, hschema⟩
      cases hfound : schema.table? remoteName with
      | none => exact .pure hs (gives_answer fun _ => rfl)
      | some table =>
          have htable := Lineage.explains_schema_iff.mp hschema remoteName table hfound
          exact .pure hs (gives_object rfl htable)
  | projectedField handle name =>
      refine (tracks_projection hs handle).bind ?_
      rintro p s' - ⟨rfl, hp⟩
      refine .pure hs ⟨?_, nofun⟩
      cases hfound : p.get? name with
      | none => exact .of_none fun _ => rfl
      | some f => exact Lineage.explains_projection_iff.mp hp name f hfound
  | compareProjections a b | compareSorts a b | compareRows a b | compareDescriptors a b =>
      exact tracks_compare hs a b fun _ _ _ => rfl
  | compile recipe =>
      refine (tracks_recipe recipe hs).bind fun e _ hs' _ => ?_
      exact (tracks_compile hs' e).bind fun _ _ hs'' _ => .pure hs'' (gives_answer fun _ => rfl)
  | compareExprs a b =>
      exact (tracks_recipe a hs).bind fun _ _ hs₁ _ =>
        (tracks_recipe b hs₁).bind fun _ _ hs₂ _ => .pure hs₂ (gives_answer fun _ => rfl)
  | compareFormulas a b => exact .pure hs (gives_answer fun _ => rfl)
  | newBase source labels =>
      exact (tracks_response hs source).bind fun answer _ hs' _ =>
        tracks_newBase hs' answer labels
  | copyBase handle | build handle =>
      exact (tracks_find hs handle).bind fun _ _ hs' _ =>
        .pure hs' (gives_blank (fun _ => rfl) (by rintro o ⟨⟩ path; rfl))
  | received handle =>
      exact (tracks_find hs handle).bind fun _ _ hs' _ =>
        tracks_get_bind (.pure hs' (gives_answer fun _ => rfl))
  | newQuery baseHandle tableHandle chosen =>
      refine (tracks_find hs baseHandle).bind fun _ s₁ hs₁ _ => ?_
      refine (tracks_find hs₁ tableHandle).bind fun _ s₂ hs₂ _ => ?_
      have hchosen : Tracks made held s₂ (chosen.mapM projection) fun _ _ => True := by
        cases chosen with
        | none => exact .pure hs₂ trivial
        | some handle =>
            exact Tracks.bind (tracks_find hs₂ handle) fun _ _ hs' _ => .pure hs' trivial
      exact hchosen.bind fun _ _ hs' _ =>
        .pure hs' (gives_blank (fun _ => rfl) (by rintro o ⟨⟩ path; rfl))
  | filter handle source =>
      exact (tracks_find hs handle).bind fun q _ hs₁ _ =>
        (tracks_filter hs₁ source).bind fun _ _ hs₂ _ => tracks_configure hs₂ q _
  | orderBy handle sorts =>
      refine (tracks_find hs handle).bind fun q s₁ hs₁ _ => ?_
      refine (tracks_mapM (R := fun _ _ => True) hs₁
        (fun _ => (tracks_find hs₁ _).imp fun _ _ h => ⟨h, trivial⟩) sorts).bind ?_
      exact fun _ _ hs₂ _ => tracks_configure hs₂ q _
  | view handle name =>
      exact (tracks_find hs handle).bind fun q _ hs' _ => tracks_configure hs' q _
  | execute baseHandle handle =>
      exact (tracks_find hs baseHandle).bind fun base _ hs₁ _ =>
        (tracks_find hs₁ handle).bind fun d _ hs₂ _ => tracks_executeRows hs₂ base d
  | run handle =>
      exact (tracks_find hs handle).bind fun q _ hs' _ => tracks_executeRows hs' q.base q.build
  | runAs handle target =>
      exact (tracks_find hs handle).bind fun q _ hs' _ =>
        tracks_executeAs hs' q.base q.build target
  | executeForError baseHandle handle =>
      exact (tracks_find hs baseHandle).bind fun base _ hs₁ _ =>
        (tracks_find hs₁ handle).bind fun d _ hs₂ _ => tracks_executeForError hs₂ base d
  | runForError handle =>
      exact (tracks_find hs handle).bind fun q _ hs' _ =>
        tracks_executeForError hs' q.base q.build
  | newRow id entries =>
      exact .pure hs (gives_blank (fun _ => rfl) (by rintro o ⟨⟩ path; rfl))
  | rowValue handle name | writeRow handle =>
      exact (tracks_find hs handle).bind fun _ _ hs' _ => .pure hs' (gives_answer fun _ => rfl)
  | readRow handle name accessor | deserializeRow handle target =>
      exact (tracks_find hs handle).bind fun _ _ hs₁ _ =>
        (tracks_ofExcept hs₁).bind fun _ _ hs₂ _ => .pure hs₂ (gives_answer fun _ => rfl)
  | newError source =>
      exact (tracks_newError hs source).bind fun n _ hs' _ => tracks_giveError hs' n
  | addContext handle context =>
      exact (tracks_addContext hs handle context).bind fun n _ hs' _ => tracks_giveError hs' n
  | outlineError handle =>
      exact (tracks_find hs handle).bind fun n _ hs₁ _ =>
        (tracks_errorOf hs₁ n).bind fun _ _ hs₂ _ => .pure hs₂ (gives_answer fun _ => rfl)

/-! ### Steps -/

/-- Whether the lineages under names stay right when an operation is done, and its own lineage
explains what it gives. -/
structure Descends (made : Field → Making → Prop) (held : Handle → Lineage) (s : Session)
    (op : Operation) (step : Nat) : Prop where
  refused : ∀ {refusal s'}, exec (perform op) s = (.error refusal, s') → s'.Explained made held
  done : ∀ {result s'}, exec (perform op) s = (.ok result, s') →
    s'.Explained made (Lineage.keep held op.changes (op.lineage s held step)) ∧
      Gives made (op.lineage s held step) result

/-- An operation may be done that changes no object. -/
theorem Tracks.descends {op : Operation} {step : Nat} (hchanges : op.changes = [])
    (h : Tracks made held s (perform op) fun result _ =>
      Gives made (op.lineage s held step) result) : Descends made held s op step where
  refused hexec := by
    have hexplained := h.1
    rwa [hexec] at hexplained
  done hexec := by
    obtain ⟨hexplained, hgives⟩ := h
    rw [hexec] at hexplained hgives
    rw [hchanges, Lineage.keep_nil]
    exact ⟨hexplained, hgives _ rfl⟩

/-- What comes of putting a field into a projection. -/
theorem exec_insertField (handle inserted : Handle) (name : String) (s : Session) :
    exec (perform (.insertField handle name inserted)) s =
      match (s.names.get? handle).bind Object.projection?,
        (s.names.get? inserted).bind Object.field? with
      | some p, some f =>
        (.ok (.projection (p.insert name f), .object (.projection (p.insert name f))),
          { s with names := s.names.insert handle (.projection (p.insert name f)) })
      | _, _ => (.error .unbound, s) := by
  rw [perform, exec_bind, projection, exec_lookUp]
  cases (s.names.get? handle).bind Object.projection? with
  | none => rfl
  | some p =>
      simp only [bound_some]
      rw [exec_bind, field, exec_lookUp]
      cases (s.names.get? inserted).bind Object.field? <;> rfl

/-- A projection that a field was put into is explained by both lineages. -/
theorem descends_insertField (hs : s.Explained made held) (handle inserted : Handle)
    (name : String) (step : Nat) :
    Descends made held s (.insertField handle name inserted) step := by
  have hexec := exec_insertField handle inserted name s
  split at hexec
  · next p f hp hf =>
    obtain ⟨o, ho, hprojection⟩ := Option.bind_eq_some_iff.mp hp
    obtain ⟨o', ho', hfield⟩ := Option.bind_eq_some_iff.mp hf
    cases o <;> cases hprojection
    cases o' <;> cases hfield
    have hchanged : ((held handle).put (.entry name) (held inserted)).Explains made
        (p.insert name f).fieldAt :=
      Lineage.explains_projection_iff.mpr <|
        (Lineage.explains_projection_iff.mp (hs handle _ ho)).insert (fun _ _ => Key.entry.inj)
          (hs inserted _ ho')
    constructor
    · intro refusal s' h
      rw [hexec] at h
      cases h
    · intro result s' h
      rw [hexec] at h
      cases h
      exact ⟨hs.insert rfl hchanged, gives_object rfl hchanged⟩
  · constructor
    · intro refusal s' h
      rw [hexec] at h
      cases h
      exact hs
    · intro result s' h
      rw [hexec] at h
      cases h

/-- **Every operation** gives fields of its lineage, where what is made in it is counted. -/
theorem descends_perform (hs : s.Explained made held) (op : Operation) {step : Nat}
    (hmade : ∀ place (f : Field), f.stamp = s.fresh + place →
      f.stamp < (exec (perform op) s).2.fresh → made f ⟨step, place⟩) :
    Descends made held s op step := by
  by_cases hop : op.Carries
  · refine (tracks_carries hs hop step).descends ?_
    cases op <;> first | rfl | exact hop.elim
  · cases op with
    | newField type remoteName outlined =>
        refine Tracks.descends rfl (tracks_of_names hs rfl fun result hok => ?_)
        cases hok
        exact gives_object rfl (.new (hmade 0 _ rfl (Nat.lt_succ_self _)))
    | newExpr recipe outlined =>
        -- Only when the recipe was followed to its end, all its fields were made.
        have hbuild : Tracks made held s (perform (.newExpr recipe outlined)) fun result s' =>
            s'.fresh = s.fresh + (0 + recipe.makings) ∧
              (Makes made step s.fresh 0 (0 + recipe.makings) →
                Gives made (recipe.lineage held step 0) result) := by
          refine (tracks_build step recipe hs (Nat.add_zero s.fresh).symm).bind ?_
          rintro e s' hs' ⟨hfresh, he⟩
          exact .pure hs' ⟨hfresh, fun hmakes => gives_object rfl (he hmakes)⟩
        refine Tracks.descends rfl ⟨hbuild.1, fun result hok => ?_⟩
        obtain ⟨hfresh, hgives⟩ := hbuild.2 result hok
        refine hgives fun place _ hlt f hf => hmade place f hf ?_
        rw [hfresh, hf]
        exact Nat.add_lt_add_left hlt _
    | insertField handle name inserted => exact descends_insertField hs handle inserted name step
    | _ => exact absurd trivial hop

/-- Rows that are kept hold no fields. -/
theorem explained_keepRows (hs : s.Explained made held) (name : Handle)
    (numbered : List (Row × Nat)) :
    (exec (numbered.forM fun entry => keep (name ++ "." ++ toString entry.2) (.row entry.1))
      s).2.Explained made held := by
  induction numbered generalizing s with
  | nil => exact hs
  | cons entry rest ih =>
      refine ih fun handle o ho => ?_
      rw [NameMap.get?_insert] at ho
      split at ho
      · cases ho
        exact .of_none fun _ => rfl
      · exact hs handle o ho

/-- What was made is explained where it is kept. -/
theorem explained_keepNamed {answer : Answer} {product : Product} {l : Lineage}
    (hs : s.Explained made held) (hgives : Gives made l (answer, product)) (name : Option Handle) :
    (exec (keepNamed name product) s).2.Explained made
      (match product with
        | .object _ => Lineage.keep held name.toList l
        | _ => held) := by
  cases name with
  | none => cases product <;> exact hs
  | some name =>
      cases product with
      | nothing => exact hs
      | rows decoded => exact explained_keepRows hs name decoded.zipIdx
      | object o => exact hs.insert rfl (hgives.2 o rfl)

end Action

end RecordQuery
