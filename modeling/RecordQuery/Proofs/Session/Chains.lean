import RecordQuery.Proofs.Error.Chain
import RecordQuery.Proofs.Except
import RecordQuery.Proofs.Session.Contexts

/-!
# Errors as a Whole

Context that is put in front of an error is told before it, and the error stays of every kind
it was of. So an error that is wrapped in contexts again and again tells all of them, the
newest first, and then what it told in the first place: in every session that steps lead to,
an error is told by the reports along its chain of causes.

## Main results

* `Session.addContext_cases` — what a step has found and changed that puts context in front of
  an error;
* `Session.tells_chain` — what errors tell, when context is added and along whole chains.
-/

namespace RecordQuery

/-! ### Actions that were not refused -/

namespace Action

variable {α β : Type} {s : Session}

/-- Of actions in a row something comes only if something comes of each. -/
theorem exists_of_exec_bind {a : Action α} {f : α → Action β} {y : β}
    (h : (exec (a >>= f) s).1 = .ok y) :
    ∃ x, (exec a s).1 = .ok x ∧ (exec (f x) (exec a s).2).1 = .ok y := by
  rw [exec_bind] at h
  rcases hexec : exec a s with ⟨refusal | x, s'⟩
  · rw [hexec] at h
    cases h
  · rw [hexec] at h
    exact ⟨x, rfl, h⟩

/-- What was looked up was found. -/
theorem bound_eq_ok_iff {found : Option α} {x : α} : bound found = .ok x ↔ found = some x := by
  cases found <;> simp [bound]

end Action

/-! ### Context in front of errors -/

namespace Session

open RecordQuery.Action

variable {s : Session} {handle context : Handle} {name : Option Handle} {answer : Answer}

/-- Where context is put in front of an error, both are errors, and nothing is in the way. -/
theorem exists_context_of_addContext
    (h : (s.step ⟨.addContext handle context, name⟩).1.result = .ok answer) :
    ∃ e c heap, s.error? handle = some e ∧ s.error? context = some c ∧
      s.heap.context (s.without context).roots e c = .ok heap := by
  rw [result_step] at h
  obtain ⟨made, hmade, -⟩ := map_eq_ok_iff.mp h
  obtain ⟨n, hadd, -⟩ := exists_of_exec_bind hmade
  obtain ⟨e, he, hadd'⟩ := exists_of_exec_bind hadd
  rw [exec_error] at he hadd'
  obtain ⟨c, hc, -⟩ := exists_of_exec_bind hadd'
  rw [exec_error] at hc
  have he' : s.started.error? handle = some e := bound_eq_ok_iff.mp he
  have hc' : s.started.error? context = some c := bound_eq_ok_iff.mp hc
  rw [exec_addContext he' hc'] at hadd
  refine ⟨e, c, ?_⟩
  cases hcontext : s.started.heap.context (s.started.without context).roots e c with
  | ok heap => exact ⟨heap, he', hc', hcontext⟩
  | error fault =>
      rw [hcontext] at hadd
      cases hadd

/-- **Context that is put in front of an error** has the error as its cause afterwards, and its
report is in front of the error. -/
theorem addContext_cases (hs : s.Sound)
    (h : (s.step ⟨.addContext handle context, name⟩).1.result = .ok answer) :
    let s' := (s.step ⟨.addContext handle context, name⟩).2
    ∃ e c behind report, s.error? handle = some e ∧ s.error? context = some c ∧
      s.heap.error? e = some behind ∧ s.heap.error? c = some (.ofReport report) ∧
      answer = .error (behind.under report) ∧
      s'.heap.error? c = some (behind.under report) ∧ s'.heap.cause? c = some e := by
  intro s'
  obtain ⟨e, c, heap, he, hc, hok⟩ := exists_context_of_addContext h
  have hlt : c < s.heap.size := hs.keeps_lt c (keeps_of_error? hc)
  obtain ⟨hcause, hfree, rfl⟩ := (hs.heap.context_eq_ok_iff (hs.roots_lt he context)).mp hok
  obtain ⟨report, behind, hreport, hbehind, hfound⟩ :=
    hs.heap.error?_setCause_self hcause hlt (hs.keeps_lt e (keeps_of_error? he))
      (hfree e List.mem_cons_self)
  obtain ⟨hresult, hchange⟩ := step_addContext_ok hs he hc hok hfound name
  have hheap : s'.heap = s.heap.setCause c e := hchange.heap
  rw [hheap]
  exact ⟨e, c, behind, report, he, hc, hbehind, hreport, Except.ok.inj (h.symm.trans hresult),
    hfound, ErrorHeap.cause?_setCause_self hlt⟩

/-- **Errors are told as a whole.** After any steps, context that is put in front of an error
becomes an error that has it as its cause, is told as the context and then the error, and is
of every kind that one of them is of. And every error that is there, however many contexts it
was wrapped in, is told by the reports of the nodes along its chain of causes, newest first,
each report of the record store with all the sources of its failure. -/
theorem tells_chain (steps : List Step) :
    let s := empty.after steps
    (∀ handle context name answer,
      (s.step ⟨.addContext handle context, name⟩).1.result = .ok answer →
        let s' := (s.step ⟨.addContext handle context, name⟩).2
        ∃ e c behind front found, s.error? handle = some e ∧ s.error? context = some c ∧
          s.heap.error? e = some behind ∧ s.heap.error? c = some front ∧
          answer = .error found ∧ s'.heap.error? c = some found ∧ s'.heap.cause? c = some e ∧
          found.Joins front behind) ∧
    ∀ n < s.heap.size, ∃ nodes reports found, s.heap.Chain n nodes ∧
      List.Forall₂ (fun m report => s.heap.report? m = some report) nodes reports ∧
      s.heap.error? n = some found ∧ found.Tells reports := by
  intro s
  have hs : s.Sound := sound_empty.after steps
  refine ⟨fun handle context name answer h => ?_, fun n hn => ?_⟩
  · obtain ⟨e, c, behind, report, he, hc, hbehind, hfront, hanswer, hfound, hcause⟩ :=
      addContext_cases hs h
    exact ⟨e, c, behind, .ofReport report, behind.under report, he, hc, hbehind, hfront, hanswer,
      hfound, hcause, behind.joins_under report⟩
  · obtain ⟨nodes, found, hchain, hfound, hreports⟩ := hs.heap.exists_chain hn
    exact ⟨nodes, found.reports, found, hchain, hreports, hfound, found.tells_reports⟩

/-- A failure of the record store with two sources, below two contexts. -/
theorem tells_chain_sources :
    let steps : List Step :=
      [⟨.newError (.report (.service ⟨"connection lost", ["reset by peer", "os error 104"]⟩)),
          some "error"⟩,
        ⟨.newError (.report (.remark "listing records")), some "inner"⟩,
        ⟨.newError (.report (.invalidStatement "no such view")), some "outer"⟩,
        ⟨.addContext "error" "inner", some "error"⟩]
    let s := empty.after steps
    (∃ nodes reports found, s.heap.Chain 1 nodes ∧
      List.Forall₂ (fun m report => s.heap.report? m = some report) nodes reports ∧
      s.heap.error? 1 = some found ∧ found.Tells reports) ∧
    ∃ found, (s.step ⟨.addContext "error" "outer", none⟩).1.result = .ok (.error found) ∧
      found.display = "invalid statement: no such view: listing records: " ++
        "connection lost: reset by peer: os error 104" ∧
      found.isService = true ∧ found.isInvalidStatement = true := by
  intro steps s
  obtain ⟨hcontext, hchain⟩ := tells_chain steps
  have hresult : ∃ found, (s.step ⟨.addContext "error" "outer", none⟩).1.result =
      .ok (.error found) := ⟨_, rfl⟩
  obtain ⟨found, hfound⟩ := hresult
  obtain ⟨e, c, behind, front, found', he, hc, hbehind, hfront, hanswer, -, -, hjoins⟩ :=
    hcontext "error" "outer" none _ hfound
  cases hanswer
  cases he
  cases hc
  cases hbehind
  cases hfront
  exact ⟨hchain 1 (by decide), found, hfound, hjoins.display.trans (by decide),
    hjoins.isService.mpr (.inr (by decide)), hjoins.isInvalidStatement.mpr (.inl (by decide))⟩

end Session

end RecordQuery
