import RecordQuery.Proofs.Session.Perform

/-!
# Requests over Whole Runs

What a store was asked is told by the operations alone: every run of a descriptor sends its
request once, to the store of the base it is run on, whatever comes of the run, and nothing
else sends anything. Copies of a base share the store, and every new base has its own.

A store that answers with an error goes on answering with that error. The error is held by
the store, so nobody can put it in front of another one.

## Main results

* `Session.received_after` — what stores were asked after steps;
* `Session.Failing.after` — a failing store fails with the same error as long as it can be
  asked;
* `Session.requests_after` — both over whole runs, as seen by those who ask.
-/

namespace RecordQuery

/-- The requests that go to one store, in order. -/
def requestsTo (i : Nat) (sent : List (Nat × Request)) : List Request :=
  (sent.filter fun entry => entry.1 == i).map Prod.snd

theorem requestsTo_append (i : Nat) (earlier later : List (Nat × Request)) :
    requestsTo i (earlier ++ later) = requestsTo i earlier ++ requestsTo i later := by
  rw [requestsTo, List.filter_append, List.map_append, requestsTo, requestsTo]

namespace Session

open RecordQuery.Action

variable {s s' : Session} {effect : Effect}

/-! ### What stores were asked -/

/-- The requests that a store has received. -/
def received (s : Session) (i : Nat) : List Request := s.services[i]?.elim [] Service.received

/-- The requests that steps send, and to which store, in order. -/
def sent (s : Session) : List Step → List (Nat × Request)
  | [] => []
  | first :: rest => (s.sends first.operation).toList ++ (s.step first).2.sent rest

/-- An effect adds the request that it sends, if it sends one, to its store. -/
theorem Change.received_eq (h : s.Change effect s' []) (hs : s.Sound) (i : Nat) :
    s'.received i = s.received i ++ requestsTo i effect.sends.toList := by
  have hpossible := h.possible
  rw [received, received, h.services]
  cases effect with
  | store response =>
      -- A new store was not asked anything, and neither was a store that is not there.
      rw [Effect.services, List.getElem?_append, List.getElem?_singleton]
      split
      · exact (List.append_nil _).symm
      · next hi =>
        rw [List.getElem?_eq_none (Nat.le_of_not_lt hi)]
        split <;> rfl
  | request j sent =>
      obtain ⟨service, hservice⟩ := hs.exists_service hpossible
      rw [Effect.services, List.getElem?_modify]
      by_cases hij : j = i
      · subst hij
        simp [hservice, Effect.sends, requestsTo, Service.receive]
      · simp [hij, Effect.sends, requestsTo]
  | _ => simp [Effect.services, Effect.sends, requestsTo]

/-- A step adds the request that its operation sends. -/
theorem received_step (hs : s.Sound) (step : Step) (i : Nat) :
    (s.step step).2.received i =
      s.received i ++ requestsTo i (s.sends step.operation).toList := by
  obtain ⟨effect, hsends, hchange⟩ := step_change hs step
  rw [hchange.received_eq hs, hsends]

/-- **What a store was asked** after steps is what they sent to it. -/
theorem received_after (hs : s.Sound) (steps : List Step) (i : Nat) :
    (s.after steps).received i = s.received i ++ requestsTo i (s.sent steps) := by
  induction steps generalizing s with
  | nil => exact (List.append_nil _).symm
  | cons first rest ih =>
      rw [after, ih (hs.step first), received_step hs, sent, requestsTo_append, List.append_assoc]

/-! ### Bases and their stores -/

/-- Whoever asks is told what the store of a base received. -/
theorem result_received {handle : Handle} {base : Base} (h : s.base? handle = some base)
    (name : Option Handle) :
    (s.step ⟨.received handle, name⟩).1.result = .ok (.requests (s.received base.service)) := by
  have hbase : s.started.base? handle = some base := h
  rw [result_step, perform, exec_bind, exec_base, hbase]
  simp only [bound_some]
  rw [exec_bind, exec_get]
  rfl

/-- A copy of a base is the same way to the same store. -/
theorem result_copyBase {handle : Handle} {base : Base} (h : s.base? handle = some base)
    (name : Option Handle) :
    (s.step ⟨.copyBase handle, name⟩).1.result = .ok (.base base) := by
  have hbase : s.started.base? handle = some base := h
  rw [result_step, perform, exec_bind, exec_base, hbase]
  rfl

/-- Making the answer of a new store is calm. -/
theorem calm_response (source : ResponseSource) (s : Session) :
    s.Calm [] (exec (response source) s).2 [] := by
  cases source with
  | decoded values =>
      have hrecords : Settles s (response (.decoded values)) fun _ => True :=
        (settles_mapM (fun _ _ => settles_ofExcept _) values).bind fun _ _ _ _ => .pure trivial
      exact hrecords.1
  | listed entries => exact .refl s []
  | failing handle =>
      have hnode : Settles s (response (.failing handle)) fun _ => True :=
        (settles_find handle).bind fun _ _ _ _ => .pure trivial
      exact hnode.1

/-- A new base leads to a store of its own. -/
theorem exec_newBase_ok {answer : Response} {labels : List String} {given : Answer × Product}
    (h : exec (newBase answer labels) s = (.ok given, s')) :
    ∃ base, given = (.base base, .object (.base base)) ∧ base.service = s.services.length ∧
      s' = { s with services := s.services ++ [.new answer] } := by
  rw [newBase, exec_bind, exec_get] at h
  simp only at h
  cases hbase : Base.build s.services.length labels with
  | error e =>
      rw [hbase] at h
      cases h
  | ok base =>
      rw [hbase] at h
      cases h
      exact ⟨base, rfl, Base.service_build hbase, rfl⟩

/-- A step that makes a base makes its store with it, and no node. -/
theorem step_newBase {source : ResponseSource} {labels : List String} {name : Option Handle}
    {base : Base} (h : (s.step ⟨.newBase source labels, name⟩).1.result = .ok (.base base)) :
    base.service = s.services.length ∧
      ∃ answer, (exec (response source) s.started).1 = .ok answer ∧
        (s.step ⟨.newBase source labels, name⟩).2.services = s.services ++ [.new answer] ∧
        (s.step ⟨.newBase source labels, name⟩).2.heap = s.heap := by
  rcases hexec : exec (perform (.newBase source labels)) s.started with
    ⟨refusal | ⟨given, product⟩, s'⟩
  · rw [(step_of_error ⟨_, name⟩ hexec).1] at h
    cases h
  · obtain ⟨hresult, hafter⟩ := step_of_ok ⟨_, name⟩ hexec
    rw [hresult] at h
    cases h
    have hcalm := calm_response source s.started
    rw [perform, exec_bind] at hexec
    rcases hanswer : exec (response source) s.started with ⟨refusal | answer, s₀⟩
    · rw [hanswer] at hexec
      cases hexec
    · rw [hanswer] at hexec hcalm
      have hservices : s₀.services = s.services := hcalm.services
      have hheap : s₀.heap = s.heap := hcalm.heap
      obtain ⟨base', hgiven, hservice, rfl⟩ := exec_newBase_ok hexec
      cases hgiven
      refine ⟨hservices ▸ hservice, answer, rfl, ?_, ?_⟩
      · rw [hafter, (calm_keepNamed _ _ _).services, hservices]
      · rw [hafter, (calm_keepNamed _ _ _).heap, hheap]

/-! ### Failing stores -/

/-- Whether a store answers with the error of a node, and the error is the same as long as the
store can be asked. -/
structure Failing (s : Session) (i n : Nat) (e : Error) : Prop where
  lt : i < s.services.length
  fails : s.failure? i = some n
  error : s.Leads [] i → s.heap.error? n = some e

/-- A step leaves a failing store failing with the same error. -/
theorem Failing.step {i n : Nat} {e : Error} (h : s.Failing i n e) (hs : s.Sound) (step : Step) :
    (s.step step).2.Failing i n e := by
  obtain ⟨effect, -, hchange⟩ := step_change hs step
  have hfails : (s.step step).2.failure? i = some n := (hchange.failure?_eq h.lt).trans h.fails
  refine ⟨lt_of_lt_of_le h.lt hchange.services_length_le, hfails, fun hleads => ?_⟩
  have hled : s.Leads [] i := by
    refine (hchange.leads i hleads).resolve_right fun hopens => ?_
    cases effect <;> first | exact hopens.elim | exact absurd (hopens ▸ h.lt) (Nat.lt_irrefl _)
  have hholds : (s.step step).2.Holds n := ⟨n, .inr ⟨i, hleads, hfails⟩, .refl⟩
  -- The store holds the node, so the node is not one that is given a cause.
  have hne : ∀ c e', effect = .cause c e' → n ≠ c := fun c e' heq hnc =>
    (hchange.alone c e' heq).2 i hleads (hnc ▸ h.fails)
  rw [(hchange.error?_eq hs (hs.failure_lt i n h.fails) hholds hne).2]
  exact h.error hled

/-- **A failing store goes on failing** with the same error, whatever is done. -/
theorem Failing.after {i n : Nat} {e : Error} (h : s.Failing i n e) (hs : s.Sound)
    (steps : List Step) : (s.after steps).Failing i n e := by
  induction steps generalizing s with
  | nil => exact h
  | cons first rest ih => exact ih (h.step hs first) (hs.step first)

/-- How an operation that runs a descriptor hands over the error of a store: it fails with it,
or takes it where that is what it is for. -/
def failed (e : Error) : Operation → Except Refusal Answer
  | .executeForError _ _ | .runForError _ => .ok (.error e)
  | _ => .error (.failed e)

/-- The error of a run is handed over. -/
theorem map_exec_deliver {base : Base} {d : Descriptor} {e : Error} {n : Nat}
    (hexec : exec (Action.execute base d) s = (.error (.failed e), s'))
    (hfails : s'.failure? base.service = some n) (op : Operation) :
    (exec (deliver op base d) s).1.map Prod.fst = failed e op := by
  have hrows : exec (executeRows base d) s = (.error (.failed e), s') := by
    rw [executeRows, exec_bind, hexec]
  cases op with
  | executeForError _ _ | runForError _ =>
      rw [deliver, executeForError, exec_tryCatch, hrows]
      simp only
      rw [exec_bind, exec_get]
      simp only [hfails]
      rfl
  | runAs _ target =>
      rw [deliver, executeAs, exec_bind, hexec]
      rfl
  | _ => exact congrArg (fun x => x.1.map Prod.fst) hrows

/-- **A run on a failing store hands over the error of the store.** -/
theorem Failing.result {i n : Nat} {e : Error} (h : s.Failing i n e) (hs : s.Sound)
    {op : Operation} {base : Base} {d : Descriptor} (hruns : s.runs? op = some (base, d))
    (hbase : base.service = i) (name : Option Handle) :
    (s.step ⟨op, name⟩).1.result = failed e op := by
  subst hbase
  have hleads : s.Leads [] base.service := leads_of_runs? hruns
  obtain ⟨service, hservice, hresponse⟩ := Option.bind_eq_some_iff.mp h.fails
  have hfound : s.started.answer? service.response = some (.error e) := by
    cases hanswer : service.response with
    | records records =>
        rw [hanswer] at hresponse
        cases hresponse
    | failure m =>
        rw [hanswer] at hresponse
        cases hresponse
        exact congrArg (Option.map Except.error) (h.error hleads)
  have hexec := exec_execute (s := s.started) (d := d) hservice hfound
  have hchange := change_execute (s.calm_started.sound hs) (s := s.started) hleads d
  have hfails := (hchange.failure?_eq h.lt).trans h.fails
  rw [hexec] at hfails
  have hruns' : s.started.runs? op = some (base, d) := hruns
  rw [result_step, exec_perform_run (isRun_of_runs? hruns), hruns']
  exact map_exec_deliver hexec hfails op

/-! ### Whole runs -/

/-- A store that was made to answer with an error fails with it. -/
theorem failing_newBase {handle : Handle} {n : Nat} {e : Error}
    (hn : s.error? handle = some n) (he : s.heap.error? n = some e) {labels : List String}
    {name : Option Handle} {base : Base}
    (h : (s.step ⟨.newBase (.failing handle) labels, name⟩).1.result = .ok (.base base)) :
    (s.step ⟨.newBase (.failing handle) labels, name⟩).2.Failing base.service n e := by
  obtain ⟨hservice, answer, hanswer, hservices, hheap⟩ := step_newBase h
  have hn' : s.started.error? handle = some n := hn
  rw [response, exec_bind, exec_error, hn'] at hanswer
  cases hanswer
  refine ⟨?_, ?_, fun _ => hheap ▸ he⟩
  · rw [hservices, hservice, List.length_append]
    exact Nat.lt_succ_self _
  · rw [failure?, hservices, hservice, List.getElem?_concat_length]
    rfl

/-- **Requests over whole runs.** After any steps, a store has received exactly the requests
that the steps sent to it, one for every run of a descriptor on a base that leads to it,
whatever came of the run. The base tells them; a copy of it leads to the same store, and a new
base to a store of its own that was not asked anything. A store that was made to answer with
an error hands over this error in every run on it, whatever was done in between. -/
theorem requests_after (steps : List Step) (name : Option Handle) :
    let s := empty.after steps
    (∀ i, s.received i = requestsTo i (empty.sent steps)) ∧
    (∀ handle base, s.base? handle = some base →
      (s.step ⟨.received handle, name⟩).1.result = .ok (.requests (s.received base.service)) ∧
        (s.step ⟨.copyBase handle, name⟩).1.result = .ok (.base base)) ∧
    (∀ source labels base,
      (s.step ⟨.newBase source labels, name⟩).1.result = .ok (.base base) →
        ¬ s.Leads [] base.service ∧
          (s.step ⟨.newBase source labels, name⟩).2.received base.service = []) ∧
    ∀ handle n labels base, s.error? handle = some n →
      (s.step ⟨.newBase (.failing handle) labels, name⟩).1.result = .ok (.base base) →
        ∃ e, s.heap.error? n = some e ∧ ∀ later s',
          s' = (s.step ⟨.newBase (.failing handle) labels, name⟩).2.after later →
            ∀ op base' d name', s'.runs? op = some (base', d) → base'.service = base.service →
              (s'.step ⟨op, name'⟩).1.result = failed e op := by
  intro s
  have hs : s.Sound := sound_empty.after steps
  refine ⟨fun i => received_after sound_empty steps i,
    fun handle base hbase => ⟨result_received hbase name, result_copyBase hbase name⟩, ?_, ?_⟩
  · intro source labels base h
    obtain ⟨hservice, answer, -, hservices, -⟩ := step_newBase h
    refine ⟨fun hleads => absurd (hs.leads_lt _ hleads) (by omega), ?_⟩
    rw [received, hservices, hservice, List.getElem?_concat_length]
    rfl
  · intro handle n labels base hn h
    obtain ⟨e, he⟩ := hs.heap.exists_error (hs.keeps_lt n (keeps_of_error? hn))
    refine ⟨e, he, ?_⟩
    rintro later s' rfl op base' d name' hruns hbase
    have hfailing := (failing_newBase hn he h).after (hs.step _) later
    exact hfailing.result ((hs.step _).after later) hruns hbase name'

/-- Context that is put in front of an error that a store answered with leaves the answers of
the store as they are. -/
theorem requests_after_context :
    let made : List Step := [⟨.newError (.report (.remark "store is down")), some "error"⟩]
    let later : List Step :=
      [⟨.newTable "Tasks" [], some "table"⟩, ⟨.newQuery "base" "table" none, some "query"⟩,
        ⟨.runForError "query", some "first"⟩,
        ⟨.newError (.report (.remark "listing records")), some "context"⟩,
        ⟨.addContext "first" "context", some "outer"⟩]
    let s := ((empty.after made).step ⟨.newBase (.failing "error") [], some "base"⟩).2.after later
    (s.error? "outer" = some 1 ∧ s.received 0 = [⟨"Tasks", ⟨none, none, none, none⟩⟩]) ∧
      (s.step ⟨.run "query", none⟩).1.result =
        .error (.failed (.ofReport (.remark "store is down"))) := by
  intro made later s
  have houter : s.error? "outer" = some 1 := by decide +kernel +zetaReduce
  have hreceived : s.received 0 = [⟨"Tasks", ⟨none, none, none, none⟩⟩] := by
    decide +kernel +zetaReduce
  have hrun : (s.runs? (.run "query")).map Prod.fst = some ⟨0, none⟩ := by
    decide +kernel +zetaReduce
  obtain ⟨⟨base, d⟩, hruns, rfl⟩ := Option.map_eq_some_iff.mp hrun
  obtain ⟨e, he, hfails⟩ :=
    (requests_after made (some "base")).2.2.2 "error" 0 [] ⟨0, none⟩ rfl rfl
  have heq : e = .ofReport (.remark "store is down") := (Option.some.inj he).symm
  subst heq
  exact ⟨⟨houter, hreceived⟩, hfails later s rfl (.run "query") ⟨0, none⟩ d none hruns rfl⟩

end Session

end RecordQuery
