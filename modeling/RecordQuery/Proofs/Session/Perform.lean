import RecordQuery.Proofs.Session.Change

/-!
# What Operations Change

The effect of every operation, and of the step that does it. Operations that run a descriptor
send one request, whatever comes of it; making errors and stores and adding context touch the
nodes and the stores; everything else has no effect.

## Main results

* `Action.settles_perform` — operations without an effect;
* `Session.perform_change` — every operation has at most one effect;
* `Session.step_change` — the effect of a step is that of its operation;
* `Session.Sound.after` — every run of steps leads to a sound session.
-/

namespace RecordQuery

/-! ### What operations make -/

namespace Product

/-- The objects that are made. -/
def objects : Product → List Object
  | .nothing => []
  | .object made => [made]
  | .rows decoded => decoded.map .row

/-- Whether what is made leads only where names of a session lead. -/
def KnownTo (product : Product) (s : Session) : Prop := ∀ o ∈ product.objects, o.KnownTo s

theorem knownTo_nothing (s : Session) : nothing.KnownTo s := nofun

theorem knownTo_object {o : Object} {s : Session} (h : o.KnownTo s) : (object o).KnownTo s :=
  fun _ hmem => List.mem_singleton.mp hmem ▸ h

/-- Rows lead to no store and no error. -/
theorem inert_of_mem_rows {rows : List Row} {o : Object} (h : o ∈ (Product.rows rows).objects) :
    o.IsInert := by
  obtain ⟨row, -, rfl⟩ := List.mem_map.mp h
  trivial

end Product

namespace Action

/-- The objects that come of an operation. A refused one makes nothing. -/
def made : Except Refusal (Answer × Product) → List Object
  | .ok (_, product) => product.objects
  | .error _ => []

/-- Whether what an operation makes leads only where names of a session lead. -/
def Known (s : Session) (result : Answer × Product) : Prop := result.2.KnownTo s

variable {s s' : Session}

/-- An operation that settles and makes nothing that leads elsewhere has no effect. -/
theorem Settles.calm {a : Action (Answer × Product)}
    (h : Settles s a (Known s)) : s.Calm [] (exec a s).2 (made (exec a s).1) := by
  obtain ⟨hcalm, hknown⟩ := h
  have hmade : ∀ o ∈ made (exec a s).1, o.KnownTo s := by
    intro o ho
    rcases hresult : (exec a s).1 with refusal | ⟨answer, product⟩
    · rw [hresult] at ho
      cases ho
    · rw [hresult] at ho
      exact hknown _ hresult o ho
  refine ⟨hcalm.services, hcalm.heap, ?_, ?_⟩
  · rintro i ⟨o, ho | ho, hi⟩
    · exact (hmade o ho).leads i hi
    · exact hcalm.leads i ⟨o, .inr ho, hi⟩
  · rintro n (hn | hn)
    · exact (hmade _ hn).keeps n rfl
    · exact hcalm.keeps n (.inr hn)

/-- An operation that looks something up and gives an object that leads nowhere. -/
theorem settles_inert {answer : Answer} {o : Object} (h : o.IsInert) :
    Settles s' (pure (answer, .object o)) (Known s) :=
  .pure (Product.knownTo_object (h.knownTo s))

/-- An operation that gives an answer alone. -/
theorem settles_answer {answer : Answer} : Settles s' (pure (answer, .nothing)) (Known s) :=
  .pure (Product.knownTo_nothing s)

end Action

/-- The base of a store leads to it. -/
theorem Base.service_build {i : Nat} {labels : List String} {base : Base}
    (h : Base.build i labels = .ok base) : base.service = i := by
  rw [Base.build] at h
  split at h
  · cases h
    rfl
  · split at h
    · cases h
    · cases h
      rfl

/-- A filter that is set changes the formula of the query and nothing else. -/
theorem Query.exists_of_set_filter {q changed : Query} {f : Filter}
    (h : q.set (.filter f) = .ok changed) : ∃ text, changed = q.filter text := by
  rw [set] at h
  cases hresult : f.compile.result with
  | error reason =>
      rw [hresult] at h
      cases h
  | ok text =>
      rw [hresult] at h
      exact ⟨text, (Except.ok.inj h).symm⟩

/-- A setting is made on the base of the query. -/
theorem Query.base_set {q changed : Query} {setting : Setting} (h : q.set setting = .ok changed) :
    changed.base = q.base := by
  cases setting with
  | filter f =>
      obtain ⟨text, rfl⟩ := exists_of_set_filter h
      rfl
  | orderBy sorts =>
      cases h
      rfl
  | view name =>
      cases h
      rfl

namespace Action

variable {s s' : Session}

/-- Making a setting reports quotes and gives a query on the same base. -/
theorem settles_configure {q : Query} (setting : Setting) (h : s.Leads [] q.base.service) :
    Settles s' (configure q setting) (Known s) := by
  refine (settles_report _).bind fun _ _ _ _ => ?_
  cases hset : q.set setting with
  | error reason => exact .throw
  | ok changed =>
      refine .pure (Product.knownTo_object ⟨?_, nofun⟩)
      rintro i hi
      rw [Object.service?, Query.base_set hset] at hi
      exact Option.some.inj hi ▸ h

end Action

/-- Whether an operation runs a descriptor. -/
def Operation.IsRun : Operation → Prop
  | .execute _ _ | .run _ | .runAs _ _ | .executeForError _ _ | .runForError _ => True
  | _ => False

/-- Whether an operation may have an effect. -/
def Operation.HasEffect : Operation → Prop
  | .newBase _ _ | .newError _ | .addContext _ _ => True
  | op => op.IsRun

namespace Session

/-- The base and the descriptor that an operation runs, if it runs any. -/
def runs? (s : Session) : Operation → Option (Base × Descriptor)
  | .execute base descriptor | .executeForError base descriptor => do
    let found ← s.base? base
    return (found, ← s.descriptor? descriptor)
  | .run query | .runAs query _ | .runForError query => do
    let found ← s.query? query
    return (found.base, found.build)
  | _ => none

/-- What is run is run where names lead. -/
theorem leads_of_runs? {s : Session} {op : Operation} {run : Base × Descriptor}
    (h : s.runs? op = some run) : s.Leads [] run.1.service := by
  cases op with
  | execute base handle | executeForError base handle =>
      obtain ⟨found, hfound, hd⟩ := Option.bind_eq_some_iff.mp h
      obtain ⟨d, -, hrun⟩ := Option.bind_eq_some_iff.mp hd
      cases hrun
      exact leads_of_base? hfound
  | run query | runAs query target | runForError query =>
      obtain ⟨found, hfound, hrun⟩ := Option.bind_eq_some_iff.mp h
      cases hrun
      exact leads_of_query? hfound
  | _ => cases h

/-- Only what runs a descriptor runs one. -/
theorem isRun_of_runs? {s : Session} {op : Operation} {run : Base × Descriptor}
    (h : s.runs? op = some run) : op.IsRun := by
  cases op <;> trivial

/-- The request that an operation sends, and to which store. -/
def sends (s : Session) (op : Operation) : Option (Nat × Request) :=
  (s.runs? op).map fun run => (run.1.service, run.2.request)

end Session

/-! ### The effect of every operation -/

namespace Action

variable {s s' : Session} {α : Type} {P : α → Prop}

/-- Whether an operation has at most one effect, and this effect sends what is told. -/
def Performs (s : Session) (sent : Option (Nat × Request)) (a : Action (Answer × Product)) :
    Prop :=
  ∃ effect, effect.sends = sent ∧ s.Change effect (exec a s).2 (made (exec a s).1)

/-- An operation that settles and makes nothing that leads elsewhere has no effect. -/
theorem Settles.performs {a : Action (Answer × Product)} (h : Settles s a (Known s)) :
    Performs s none a :=
  ⟨.nothing, rfl, h.calm.change⟩

/-- What settles may come before an effect that sends nothing. -/
theorem Settles.bind_performs {a : Action α} {f : α → Action (Answer × Product)}
    (ha : Settles s a P)
    (hf : ∀ x s', s.Calm [] s' [] → P x → Performs s' none (f x)) : Performs s none (a >>= f) := by
  obtain ⟨hcalm, hgives⟩ := ha
  rw [Performs, exec_bind]
  rcases hexec : exec a s with ⟨refusal | x, s'⟩
  · rw [hexec] at hcalm
    exact ⟨.nothing, rfl, hcalm.change⟩
  · rw [hexec] at hcalm hgives
    obtain ⟨effect, hsends, hchange⟩ := hf x s' hcalm (hgives x rfl)
    exact ⟨effect, hsends, hcalm.then_change hchange⟩

/-- An error that is kept under a name may be looked up before an effect. -/
theorem performs_error {handle : Handle} {f : Nat → Action (Answer × Product)}
    (h : ∀ n, s.Keeps [] n → Performs s none (f n)) : Performs s none (error handle >>= f) := by
  rw [Performs, exec_bind, exec_error]
  cases hfound : s.error? handle with
  | none => exact ⟨.nothing, rfl, (Session.Calm.refl s []).change⟩
  | some n => exact h n (Session.keeps_of_error? hfound)

/-! #### New stores -/

/-- A new store is led to by the base that comes with it alone. -/
theorem performs_newStore {answer : Response} (labels : List String)
    (h : ∀ n, answer.failure? = some n → s.Keeps [] n) :
    Performs s none (newBase answer labels) := by
  rw [newBase, Performs, exec_bind, exec_get]
  cases hbase : Base.build s.services.length labels with
  | error e =>
      simp only [hbase]
      exact ⟨.nothing, rfl, (Session.Calm.refl s []).change⟩
  | ok base =>
      simp only [hbase]
      have hchange : s.Change (.store answer)
          { s with services := s.services ++ [.new answer] } [] :=
        Session.change_of_names rfl h rfl rfl nofun
      refine ⟨.store answer, rfl, hchange.give (o := .base base) ?_ nofun nofun⟩
      rintro i hi
      exact .inr ((Option.some.inj hi).symm.trans (Base.service_build hbase))

/-- A new store answers with records, or with an error that is kept. -/
theorem performs_newBase (source : ResponseSource) (labels : List String) :
    Performs s none (response source >>= fun answer => newBase answer labels) := by
  cases source with
  | decoded values =>
      have hrecords : Settles s (response (.decoded values)) fun answer => answer.failure? = none :=
        (settles_mapM (fun _ _ => settles_ofExcept _) values).bind fun _ _ _ _ => .pure rfl
      refine hrecords.bind_performs fun answer _ _ hanswer => performs_newStore labels ?_
      rw [hanswer]
      exact nofun
  | listed entries => exact performs_newStore labels nofun
  | failing handle =>
      rw [response, bind_assoc]
      refine performs_error fun n hn => performs_newStore labels ?_
      rintro m hm
      exact Option.some.inj hm ▸ hn

/-! #### New errors -/

/-- Giving an error changes nothing, and makes the error or nothing. -/
theorem giveError_cases (n : Nat) (s : Session) :
    (exec (giveError n) s).2 = s ∧
      (made (exec (giveError n) s).1 = [] ∨ made (exec (giveError n) s).1 = [.error n]) := by
  rw [giveError, exec_bind, exec_errorOf]
  cases s.heap.error? n with
  | none => exact ⟨rfl, .inl rfl⟩
  | some e => exact ⟨rfl, .inr rfl⟩

/-- A change is over when the error that it gives is answered with. -/
theorem change_giveError (effect : Effect) {n : Nat} (hsends : effect.sends = none)
    (h : s.Change effect s' [.error n]) :
    ∃ effect, effect.sends = none ∧
      s.Change effect (exec (giveError n) s').2 (made (exec (giveError n) s').1) := by
  obtain ⟨hsession, hmade⟩ := giveError_cases n s'
  rw [hsession]
  refine ⟨effect, hsends, h.then_calm (Session.calm_of_has rfl rfl ?_)⟩
  rcases hmade with hmade | hmade <;> rw [hmade]
  · rintro o (ho | ho)
    · cases ho
    · exact .inr ho
  · exact fun o ho => ho

/-- A new node is made of errors that are kept. -/
theorem performs_newNode (content : NodeContent)
    (h : ∀ m, content.wrapped? = some m → s.Keeps [] m) :
    Performs s none (newNode content >>= giveError) := by
  rw [Performs, exec_bind, newNode, exec_modifyGet]
  have hchange : s.Change (.node content) { s with heap := s.heap.add content } [] :=
    Session.change_of_names rfl h rfl rfl nofun
  refine change_giveError (.node content) rfl (hchange.give nofun ?_ nofun)
  rintro n hn
  exact .inr (Object.error.inj hn).symm

/-- Making an error. -/
theorem performs_newError (source : ErrorSource) :
    Performs s none (newError source >>= giveError) := by
  have hwraps : ∀ {m n : Nat}, s.Keeps [] n → some n = some m → s.Keeps [] m :=
    fun hn heq => Option.some.inj heq ▸ hn
  cases source with
  | report report => exact performs_newNode _ nofun
  | serviceOf handle =>
      rw [newError, bind_assoc]
      exact performs_error fun n hn => performs_newNode _ fun m => hwraps hn
  | externalOf handle =>
      rw [newError, bind_assoc]
      exact performs_error fun n hn => performs_newNode _ fun m => hwraps hn
  | again handle =>
      refine performs_error fun n hn => change_giveError .nothing rfl ?_
      refine (Session.Calm.refl s []).change.give nofun ?_ nofun
      rintro m hm
      exact .inl (Object.error.inj hm ▸ hn)

/-- What comes of adding context once both errors are found. -/
theorem exec_addContext {handle context : Handle} {e c : Nat} (he : s.error? handle = some e)
    (hc : s.error? context = some c) :
    exec (addContext handle context) s =
      match s.heap.context (s.without context).roots e c with
      | .ok heap => (.ok c, { s.without context with heap := heap })
      | .error fault => (.error (.noContext fault), s.without context) := by
  rw [addContext, exec_bind, exec_error, he]
  simp only [bound_some]
  rw [exec_bind, exec_error, hc]
  simp only [bound_some]
  rw [exec_bind, exec_release]
  simp only
  rw [exec_bind, exec_get]
  simp only
  have hheap : (s.without context).heap = s.heap := rfl
  rw [hheap]
  cases s.heap.context (s.without context).roots e c <;> rfl

/-- A node is given a cause once its own name is taken away. -/
theorem change_context (hs : s.Sound) {handle context : Handle} {c e : Nat} {heap : ErrorHeap}
    (he : s.error? handle = some e) (hc : s.error? context = some c)
    (hok : s.heap.context (s.without context).roots e c = .ok heap) :
    s.Change (.cause c e) { s.without context with heap := heap } [.error c] := by
  have hcalm := s.calm_without context
  have hkept : s.Keeps [] c := Session.keeps_of_error? hc
  obtain ⟨hcause, hfree, rfl⟩ :=
    (hs.heap.context_eq_ok_iff (hs.roots_lt he context)).mp hok
  have hroot : ∀ n, (s.without context).Root [] n → ¬ s.heap.Reaches n c := fun n hn =>
    hfree n (List.mem_cons_of_mem e (Session.mem_roots_iff.mpr hn))
  -- All names that are left were asked whether they hold `c`, and none does.
  have hchange : s.Change (.cause c e)
      { s.without context with heap := s.heap.setCause c e } [] := {
    possible := ⟨hkept, Session.keeps_of_error? he, hcause, hfree e List.mem_cons_self⟩
    services := rfl
    heap := rfl
    leads := fun i hi => .inl (hcalm.leads i hi)
    keeps := fun n hn => .inl (hcalm.keeps n hn)
    alone := by
      rintro c' e' heq
      cases heq
      exact ⟨fun n hn hreach => absurd hreach (hroot n hn),
        fun i hi hfails => hroot c (.inr ⟨i, hi, hfails⟩) .refl⟩ }
  refine hchange.give nofun ?_ ?_
  · rintro n hn
    exact .inl (Object.error.inj hn ▸ hkept)
  · rintro c' e' heq
    rw [(Effect.cause.inj heq).1]

/-- What is given a cause is held by nobody else, or nothing is given one. -/
theorem performs_addContext (hs : s.Sound) (handle context : Handle) :
    Performs s none (addContext handle context >>= giveError) := by
  cases he : s.error? handle with
  | none =>
      rw [Performs, exec_bind, addContext, exec_bind, exec_error, he]
      exact ⟨.nothing, rfl, (Session.Calm.refl s []).change⟩
  | some e =>
    cases hc : s.error? context with
    | none =>
        rw [Performs, exec_bind, addContext, exec_bind, exec_error, he]
        simp only [bound_some]
        rw [exec_bind, exec_error, hc]
        exact ⟨.nothing, rfl, (Session.Calm.refl s []).change⟩
    | some c =>
        rw [Performs, exec_bind, exec_addContext he hc]
        cases hcontext : s.heap.context (s.without context).roots e c with
        | error fault => exact ⟨.nothing, rfl, (s.calm_without context).change⟩
        | ok heap => exact change_giveError (.cause c e) rfl (change_context hs he hc hcontext)

/-! #### Runs -/

/-- The answer of a store. -/
theorem exec_answer {response : Response} {found : Except Error (List Record)}
    (h : s.answer? response = some found) : exec (answer response) s = (.ok found, s) := by
  cases response with
  | records records =>
      cases h
      rfl
  | failure n =>
      obtain ⟨e, he, rfl⟩ := Option.map_eq_some_iff.mp h
      rw [answer, exec_bind, exec_errorOf, he]
      rfl

/-- A run sends one request and gives the rows, or the error, that come of the answer. -/
theorem exec_execute {base : Base} {d : Descriptor} {service : Service}
    {found : Except Error (List Record)} (hservice : s.services[base.service]? = some service)
    (hfound : s.answer? service.response = some found) :
    exec (execute base d) s =
      ((RecordQuery.execute base d found).result.mapError .failed,
        { s with
          services := s.services.modify base.service (·.receive d.request)
          events := s.events ++ (RecordQuery.execute base d found).events }) := by
  rw [execute, exec_bind, exec_get]
  simp only [hservice]
  rw [exec_bind, exec_modify]
  simp only
  have hasked : ({ s with
      services := s.services.modify base.service (·.receive d.request) } : Session).answer?
        service.response = some found := hfound
  rw [exec_bind, exec_answer hasked]
  simp only
  rw [exec_bind, report, exec_modify]
  cases (RecordQuery.execute base d found).result <;> rfl

/-- A run asks the store that its base leads to. -/
theorem change_execute (hs : s.Sound) {base : Base} (hbase : s.Leads [] base.service)
    (d : Descriptor) :
    s.Change (.request base.service d.request) (exec (execute base d) s).2 [] := by
  obtain ⟨service, hservice⟩ := hs.exists_service hbase
  obtain ⟨found, hfound⟩ := hs.exists_answer hservice
  rw [exec_execute hservice hfound]
  exact Session.change_of_names rfl hbase rfl rfl nofun

/-- What is done with the rows of a run, or with the error of its store. -/
def deliver : Operation → Base → Descriptor → Action (Answer × Product)
  | .executeForError _ _, base, d | .runForError _, base, d => executeForError base d
  | .runAs _ target, base, d => executeAs base d target
  | _, base, d => executeRows base d

/-- An operation that runs a descriptor looks names up and delivers what comes of the run. -/
theorem exec_perform_run {op : Operation} (hop : op.IsRun) (s : Session) :
    exec (perform op) s =
      match s.runs? op with
      | some (base, d) => exec (deliver op base d) s
      | none => (.error .unbound, s) := by
  cases op with
  | execute base handle | executeForError base handle =>
      rw [perform, exec_bind, exec_base, Session.runs?]
      cases s.base? base with
      | none => rfl
      | some found =>
          simp only [bound_some]
          rw [exec_bind, exec_descriptor]
          cases s.descriptor? handle <;> rfl
  | run handle | runAs handle target | runForError handle =>
      rw [perform, exec_bind, exec_query, Session.runs?]
      cases s.query? handle <;> rfl
  | _ => exact hop.elim

variable {base : Base}

/-- A run for which something is done with the rows afterwards. -/
theorem change_execute_bind (hs : s.Sound) (hbase : s.Leads [] base.service) (d : Descriptor)
    {f : List Row → Action (Answer × Product)} (hf : ∀ rows s', Settles s' (f rows) (Known s')) :
    s.Change (.request base.service d.request) (exec (execute base d >>= f) s).2
      (made (exec (execute base d >>= f) s).1) := by
  have hchange := change_execute hs hbase d
  rw [exec_bind]
  rcases hexec : exec (execute base d) s with ⟨refusal | rows, s'⟩
  · rw [hexec] at hchange
    exact hchange
  · rw [hexec] at hchange
    exact hchange.then_calm (hf rows s').calm

/-- A run that gives its rows makes nothing that leads anywhere. -/
theorem change_executeRows (hs : s.Sound) (hbase : s.Leads [] base.service) (d : Descriptor) :
    s.Change (.request base.service d.request) (exec (executeRows base d) s).2
      (made (exec (executeRows base d) s).1) :=
  change_execute_bind hs hbase d fun _ _ =>
    .pure fun _ ho => (Product.inert_of_mem_rows ho).knownTo _

/-- A run for the error of its store reveals that error. -/
theorem change_executeForError (hs : s.Sound) (hbase : s.Leads [] base.service)
    (d : Descriptor) :
    s.Change (.request base.service d.request) (exec (executeForError base d) s).2
      (made (exec (executeForError base d) s).1) := by
  have hchange := change_executeRows hs hbase d
  rw [executeForError, exec_tryCatch]
  rcases hexec : exec (executeRows base d) s with ⟨refusal | result, s'⟩
  · rw [hexec] at hchange
    simp only
    rw [exec_bind, exec_get]
    simp only
    split
    · -- The error that is given is the one that the store held before it was asked.
      next e n hfails =>
      rw [hchange.failure?_eq (hs.leads_lt _ hbase)] at hfails
      refine hchange.give nofun ?_ nofun
      rintro m hm
      exact .inr (Object.error.inj hm ▸ hfails)
    · exact hchange
  · rw [hexec] at hchange
    exact hchange

/-- **A run sends one request**, whatever is done with its rows or its error. -/
theorem change_deliver (hs : s.Sound) (hbase : s.Leads [] base.service) (op : Operation)
    (d : Descriptor) :
    s.Change (.request base.service d.request) (exec (deliver op base d) s).2
      (made (exec (deliver op base d) s).1) := by
  cases op with
  | executeForError _ _ | runForError _ => exact change_executeForError hs hbase d
  | runAs _ target =>
      refine change_execute_bind hs hbase d fun rows s' => ?_
      exact (settles_mapM (fun _ _ => settles_ofExcept _) rows).bind fun _ _ _ _ => settles_answer
  | _ => exact change_executeRows hs hbase d

/-- A run sends one request, unless it names things that are not there. -/
theorem performs_run (hs : s.Sound) {op : Operation} (hop : op.IsRun) :
    Performs s (s.sends op) (perform op) := by
  rw [Performs, exec_perform_run hop, Session.sends]
  cases hruns : s.runs? op with
  | none => exact ⟨.nothing, rfl, (Session.Calm.refl s []).change⟩
  | some run => exact ⟨_, rfl, change_deliver hs (Session.leads_of_runs? hruns) op run.2⟩

/-! #### Everything else -/

/-- Telling two things under names apart makes nothing. -/
theorem settles_compare {β : Type} {select : Object → Option α} {select' : Object → Option β}
    {f : α → β → Answer} (a b : Handle) :
    Settles s
      (do return (f (← lookUp select a) (← lookUp select' b), .nothing))
      (Known s) :=
  (settles_find a).bind fun _ _ _ _ => (settles_find b).bind fun _ _ _ _ => settles_answer

/-- Looking fields up one after the other. -/
theorem settles_findAll {select : Object → Option α} (handles : List Handle) :
    Settles s (handles.mapM (lookUp select)) fun _ => True :=
  settles_mapM (fun _ _ => settles_find _) handles

/-- Fields, tables, expressions, queries and rows are made without an effect. -/
theorem settles_perform {op : Operation} (s : Session) (hop : ¬ op.HasEffect) :
    Settles s (perform op) (Known s) := by
  cases op with
  | newField type remoteName outlined =>
      exact settles_stamp.bind fun _ _ _ _ => settles_inert trivial
  | copyField handle | wholeProjection handle | newSort handle direction | build handle =>
      exact (settles_find handle).bind fun _ _ _ _ => settles_inert trivial
  | compareFields a b | compareProjections a b | compareSorts a b | compareDescriptors a b
  | compareRows a b => exact settles_compare a b
  | countFields handles => exact (settles_findAll handles).bind fun _ _ _ _ => settles_answer
  | newTable remoteName named =>
      exact (settles_fields named).bind fun _ _ _ _ => settles_inert trivial
  | tableField handle name =>
      refine (settles_find handle).bind fun table _ _ _ => ?_
      cases table.field? name with
      | none => exact settles_answer
      | some found => exact settles_inert trivial
  | projectTable handle names =>
      exact (settles_find handle).bind fun _ _ _ _ =>
        (settles_ofExcept _).bind fun _ _ _ _ => settles_inert trivial
  | newSchema handles => exact (settles_findAll handles).bind fun _ _ _ _ => settles_inert trivial
  | schemaTable handle remoteName =>
      refine (settles_find handle).bind fun schema _ _ _ => ?_
      cases schema.table? remoteName with
      | none => exact settles_answer
      | some found => exact settles_inert trivial
  | newProjection named =>
      exact (settles_fields named).bind fun _ _ _ _ => settles_inert trivial
  | insertField handle name inserted =>
      refine (settles_find handle).bind fun changed _ _ _ => ?_
      refine (settles_find inserted).bind fun found s' _ _ => ?_
      have hinert : (Object.projection (changed.insert name found)).IsInert := trivial
      exact (settles_keep (hinert.knownTo s')).bind fun _ _ _ _ => settles_inert trivial
  | projectedField handle name | rowValue handle name | writeRow handle =>
      exact (settles_find handle).bind fun _ _ _ _ => settles_answer
  | newExpr recipe outlined =>
      exact (settles_build recipe s).bind fun _ _ _ _ => settles_inert trivial
  | compile recipe =>
      exact (settles_build recipe s).bind fun _ _ _ _ =>
        (settles_compile _).bind fun _ _ _ _ => settles_answer
  | compareExprs a b =>
      exact (settles_build a s).bind fun _ _ _ _ =>
        (settles_build b _).bind fun _ _ _ _ => settles_answer
  | compareFormulas a b => exact settles_answer
  | copyBase handle =>
      refine (settles_base handle).bind fun found _ _ hfound => ?_
      refine .pure (Product.knownTo_object ⟨fun i hi => ?_, nofun⟩)
      exact Option.some.inj hi ▸ hfound
  | received handle =>
      exact (settles_base handle).bind fun _ _ _ _ =>
        settles_get.bind fun _ _ _ _ => settles_answer
  | newQuery baseHandle tableHandle chosen =>
      -- The query leads where the base does that it is made on.
      refine (settles_base baseHandle).bind fun found _ _ hfound => ?_
      refine (settles_find tableHandle).bind fun target s' _ _ => ?_
      have hchosen : Settles s' (chosen.mapM projection) fun _ => True := by
        cases chosen with
        | none => exact .pure trivial
        | some handle => exact Settles.bind (settles_find handle) fun _ _ _ _ => .pure trivial
      refine hchosen.bind fun selected _ _ _ => ?_
      refine .pure (Product.knownTo_object ⟨fun i hi => ?_, nofun⟩)
      exact Option.some.inj hi ▸ hfound
  | filter handle source =>
      exact (settles_query handle).bind fun _ _ _ hfound =>
        (settles_filter source).bind fun _ _ _ _ => settles_configure _ hfound
  | orderBy handle sorts =>
      exact (settles_query handle).bind fun _ _ _ hfound =>
        (settles_findAll sorts).bind fun _ _ _ _ => settles_configure _ hfound
  | view handle name =>
      exact (settles_query handle).bind fun _ _ _ hfound => settles_configure _ hfound
  | newRow id entries => exact settles_inert trivial
  | readRow handle name accessor =>
      exact (settles_find handle).bind fun _ _ _ _ =>
        (settles_ofExcept _).bind fun _ _ _ _ => settles_answer
  | deserializeRow handle target =>
      exact (settles_find handle).bind fun _ _ _ _ =>
        (settles_ofExcept _).bind fun _ _ _ _ => settles_answer
  | outlineError handle =>
      exact (settles_find handle).bind fun _ _ _ _ =>
        (settles_errorOf _).bind fun _ _ _ _ => settles_answer
  | _ => exact absurd trivial hop

end Action

namespace Session

variable {s : Session}

/-- **Every operation has at most one effect**, and sends a request if it runs a descriptor. -/
theorem perform_change (hs : s.Sound) (op : Operation) :
    Action.Performs s (s.sends op) (Action.perform op) := by
  by_cases hop : op.HasEffect
  · cases op with
    | newBase source labels => exact Action.performs_newBase source labels
    | newError source => exact Action.performs_newError source
    | addContext handle context => exact Action.performs_addContext hs handle context
    | execute | run | runAs | executeForError | runForError => exact Action.performs_run hs hop
    | _ => exact hop.elim
  · have hsends : s.sends op = none := by
      cases op <;> first | rfl | exact absurd trivial hop
    rw [hsends]
    exact (Action.settles_perform s hop).performs

end Session

/-! ### The effect of a step -/

namespace Action

variable {s : Session}

/-- Keeping inert objects is calm. -/
theorem settles_keepRows (name : Handle) (numbered : List (Row × Nat)) :
    Settles s (numbered.forM fun entry => keep (name ++ "." ++ toString entry.2) (.row entry.1))
      fun _ => True := by
  induction numbered generalizing s with
  | nil => exact .pure trivial
  | cons entry rest ih =>
      have hinert : (Object.row entry.1).IsInert := trivial
      exact (settles_keep (hinert.knownTo s)).bind fun _ _ _ _ => ih

/-- What was made leads nowhere else once it is kept. -/
theorem calm_keepProduct (name : Handle) (product : Product) (s : Session) :
    s.Calm product.objects (exec (keepProduct name product) s).2 [] := by
  cases product with
  | nothing => exact .refl s []
  | object o =>
      refine Session.calm_of_has rfl rfl ?_
      rintro o' (hmem | ⟨handle, ho'⟩)
      · cases hmem
      · simp only [keepProduct, keep, exec_modify, NameMap.get?_insert] at ho'
        split at ho'
        · exact .inl (List.mem_singleton.mpr (Option.some.inj ho').symm)
        · exact Session.has_of_get? ho' _
  | rows decoded =>
      have hdrop : s.Calm (Product.rows decoded).objects s [] :=
        Session.calm_of_has rfl rfl fun o ho => .inr (ho.resolve_left List.not_mem_nil)
      exact hdrop.trans (settles_keepRows name decoded.zipIdx).1

/-- Keeping is never refused. -/
theorem exec_keepProduct_ok (name : Handle) (product : Product) (s : Session) :
    (exec (keepProduct name product) s).1 = .ok ⟨⟩ := by
  cases product with
  | nothing => rfl
  | object o => rfl
  | rows decoded =>
      rw [keepProduct]
      generalize decoded.zipIdx = numbered
      induction numbered generalizing s with
      | nil => rfl
      | cons entry rest ih => exact ih _

/-- Keeping touches the names and nothing else. -/
theorem exists_names_keepNamed (name : Option Handle) (product : Product) (s : Session) :
    ∃ names, (exec (keepNamed name product) s).2 = { s with names := names } := by
  cases name with
  | none => exact ⟨s.names, rfl⟩
  | some name =>
      cases product with
      | nothing => exact ⟨s.names, rfl⟩
      | object o => exact ⟨_, rfl⟩
      | rows decoded =>
          rw [keepNamed, keepProduct]
          generalize decoded.zipIdx = numbered
          induction numbered generalizing s with
          | nil => exact ⟨s.names, rfl⟩
          | cons entry rest ih =>
              exact ih { s with
                names := s.names.insert (name ++ "." ++ toString entry.2) (.row entry.1) }

/-- A step keeps what its operation made, if it made something. -/
theorem exec_stepAction (step : Step) (s : Session) :
    exec (Session.stepAction step) s =
      match exec (perform step.operation) s with
      | (.ok (answer, product), s') =>
        (.ok answer,
          (exec (keepNamed (step.name.or step.operation.defaultName) product) s').2)
      | (.error refusal, s') => (.error refusal, s') := by
  rw [Session.stepAction, exec_bind]
  rcases exec (perform step.operation) s with ⟨refusal | ⟨answer, product⟩, s'⟩
  · rfl
  · simp only
    rw [exec_bind]
    cases step.name.or step.operation.defaultName with
    | none => rfl
    | some name =>
        have hok := exec_keepProduct_ok name product s'
        rw [keepNamed]
        rcases hexec : exec (keepProduct name product) s' with ⟨result, s''⟩
        rw [hexec] at hok
        cases hok
        rfl

/-- What was made leads nowhere else whether it is kept or not. -/
theorem calm_keepNamed (name : Option Handle) (product : Product) (s : Session) :
    s.Calm product.objects (exec (keepNamed name product) s).2 [] := by
  cases name with
  | none => exact Session.calm_of_has rfl rfl fun o ho => .inr (ho.resolve_left List.not_mem_nil)
  | some name => exact calm_keepProduct name product s

end Action

namespace Session

open RecordQuery.Action

variable {s : Session}

/-- A session at the beginning of a step: the events of the step before are gone. -/
def started (s : Session) : Session := { s with events := [] }

/-- The beginning of a step is calm. -/
theorem calm_started (s : Session) : s.Calm [] s.started [] := calm_of_has rfl rfl fun _ ho => ho

/-- A refused operation is a refused step, which keeps nothing. -/
theorem step_of_error (step : Step) {refusal : Refusal} {s' : Session}
    (h : exec (perform step.operation) s.started = (.error refusal, s')) :
    (s.step step).1.result = .error refusal ∧ (s.step step).2 = s' := by
  have hexec : exec (stepAction step) s.started = (.error refusal, s') := by
    rw [exec_stepAction, h]
  exact ⟨congrArg Prod.fst hexec, congrArg Prod.snd hexec⟩

/-- An operation that is not refused gives the answer of its step, and what it made is kept. -/
theorem step_of_ok (step : Step) {answer : Answer} {product : Product} {s' : Session}
    (h : exec (perform step.operation) s.started = (.ok (answer, product), s')) :
    (s.step step).1.result = .ok answer ∧
      (s.step step).2 =
        (exec (keepNamed (step.name.or step.operation.defaultName) product) s').2 := by
  have hexec : exec (stepAction step) s.started =
      (.ok answer,
        (exec (keepNamed (step.name.or step.operation.defaultName) product) s').2) := by
    rw [exec_stepAction, h]
  exact ⟨congrArg Prod.fst hexec, congrArg Prod.snd hexec⟩

/-- What comes of a step is what comes of its operation. -/
theorem result_step (s : Session) (step : Step) :
    (s.step step).1.result = (exec (perform step.operation) s.started).1.map Prod.fst := by
  rcases hexec : exec (perform step.operation) s.started with ⟨refusal | ⟨answer, product⟩, s'⟩
  · exact (step_of_error step hexec).1
  · exact (step_of_ok step hexec).1

/-- **The effect of a step** is that of its operation. -/
theorem step_change (hs : s.Sound) (step : Step) :
    ∃ effect, effect.sends = s.sends step.operation ∧ s.Change effect (s.step step).2 [] := by
  obtain ⟨effect, hsends, hchange⟩ := perform_change (s.calm_started.sound hs) step.operation
  refine ⟨effect, hsends, s.calm_started.then_change ?_⟩
  rcases hexec : exec (perform step.operation) s.started with ⟨refusal | ⟨answer, product⟩, s'⟩
  · rw [hexec] at hchange
    exact (step_of_error step hexec).2 ▸ hchange
  · rw [hexec] at hchange
    exact (step_of_ok step hexec).2 ▸ hchange.then_calm (calm_keepNamed _ product s')

/-! ### Runs of steps -/

/-- The session after steps. -/
def after (s : Session) : List Step → Session
  | [] => s
  | first :: rest => (s.step first).2.after rest

/-- The session in which nothing was done is sound. -/
theorem sound_empty : empty.Sound where
  leads_lt := by
    rintro i ⟨o, hmem | ⟨handle, ho⟩, -⟩
    · cases hmem
    · cases ho
  keeps_lt := by
    rintro n (hmem | ⟨handle, ho⟩)
    · cases hmem
    · cases ho
  failure_lt := nofun
  heap := ErrorHeap.sound_empty

/-- **Every step keeps a session sound.** -/
theorem Sound.step (hs : s.Sound) (step : Step) : (s.step step).2.Sound := by
  obtain ⟨effect, -, hchange⟩ := step_change hs step
  exact hchange.sound hs

/-- **Every run of steps leads to a sound session.** -/
theorem Sound.after (hs : s.Sound) (steps : List Step) : (s.after steps).Sound := by
  induction steps generalizing s with
  | nil => exact hs
  | cons first rest ih => exact ih (hs.step first)

end Session

end RecordQuery
