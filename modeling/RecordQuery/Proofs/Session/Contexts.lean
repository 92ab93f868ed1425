import RecordQuery.Proofs.Session.Perform

/-!
# Context among Shared Errors

Context is put in front of an error by giving its node a cause. Whether that is possible
depends on who holds the node at the time: names of the session, errors that wrap it or have
it as a cause, and stores that answer with it. It is refused when the node has a cause
already, and otherwise when anybody else holds it. Either way everybody who goes on holding
an error holds the same error afterwards, and no chain of causes is ever closed to a cycle.

## Main results

* `Session.addContext_step` — when context is refused in a run of steps, what comes of it
  otherwise, and which errors stay the same.
-/

namespace RecordQuery

open Relation (TransGen)

namespace Session

open RecordQuery.Action

variable {s : Session} {handle context : Handle} {e c : Nat}

/-- Refused context takes the name of the context away, and nothing else happens. -/
theorem step_addContext_error (he : s.error? handle = some e) (hc : s.error? context = some c)
    {fault : ContextFault}
    (hfault : s.heap.context (s.without context).roots e c = .error fault) (name : Option Handle) :
    (s.step ⟨.addContext handle context, name⟩).1.result = .error (.noContext fault) ∧
      s.Calm [] (s.step ⟨.addContext handle context, name⟩).2 [] := by
  have hfault' : s.started.heap.context (s.started.without context).roots e c = .error fault :=
    hfault
  have hexec : exec (perform (.addContext handle context)) s.started =
      (.error (.noContext fault), s.started.without context) := by
    rw [perform, exec_bind, exec_addContext (s := s.started) he hc, hfault']
  obtain ⟨hresult, hafter⟩ := step_of_error ⟨_, name⟩ hexec
  exact ⟨hresult, hafter ▸ s.calm_started.trans (s.started.calm_without context)⟩

/-- Context that is not refused gives a node a cause. -/
theorem step_addContext_ok (hs : s.Sound) (he : s.error? handle = some e)
    (hc : s.error? context = some c) {heap : ErrorHeap} {found : Error}
    (hok : s.heap.context (s.without context).roots e c = .ok heap)
    (hfound : heap.error? c = some found) (name : Option Handle) :
    (s.step ⟨.addContext handle context, name⟩).1.result = .ok (.error found) ∧
      s.Change (.cause c e) (s.step ⟨.addContext handle context, name⟩).2 [] := by
  have hok' : s.started.heap.context (s.started.without context).roots e c = .ok heap := hok
  have hexec : exec (perform (.addContext handle context)) s.started =
      (.ok (.error found, .object (.error c)),
        { s.started.without context with heap := heap }) := by
    rw [perform, exec_bind, exec_addContext (s := s.started) he hc, hok']
    simp only
    rw [giveError, exec_bind, exec_errorOf]
    simp only [hfound, bound_some]
    rfl
  obtain ⟨hresult, hafter⟩ := step_of_ok ⟨_, name⟩ hexec
  have hchange := change_context (s.calm_started.sound hs) (s := s.started) he hc hok'
  refine ⟨hresult, ?_⟩
  rw [hafter]
  exact s.calm_started.then_change (hchange.then_calm (calm_keepNamed _ (.object (.error c)) _))

/-- Whether the node of a context is held by anybody but the name of the context: behind the
error itself, or under the names that are left when the name of the context is gone. -/
def HeldElsewhere (s : Session) (context : Handle) (e c : Nat) : Prop :=
  s.heap.Reaches e c ∨ (s.without context).Holds c

/-- Who holds a node elsewhere is found among the errors that are held. -/
theorem heldElsewhere_iff :
    s.HeldElsewhere context e c ↔
      ∃ root ∈ e :: (s.without context).roots, s.heap.Reaches root c := by
  constructor
  · rintro (hreach | ⟨root, hroot, hreach⟩)
    · exact ⟨e, List.mem_cons_self, hreach⟩
    · exact ⟨root, List.mem_cons_of_mem e (mem_roots_iff.mpr hroot), hreach⟩
  · rintro ⟨root, hmem, hreach⟩
    rcases List.mem_cons.mp hmem with rfl | hmem
    · exact .inl hreach
    · exact .inr ⟨root, mem_roots_iff.mp hmem, hreach⟩

/-- A change without new nodes leaves the errors that are held as they are. -/
theorem Change.stays {s' : Session} {effect : Effect} (h : s.Change effect s' []) (hs : s.Sound)
    (hsize : s'.heap.size = s.heap.size) {n : Nat} (hholds : s'.Holds n)
    (hne : ∀ c e, effect = .cause c e → n ≠ c) :
    s.Holds n ∧ ∃ found, s.heap.error? n = some found ∧ s'.heap.error? n = some found := by
  have hn : n < s.heap.size := hsize ▸ (h.sound hs).holds_lt hholds
  obtain ⟨hbefore, hsame⟩ := h.error?_eq hs hn hholds hne
  obtain ⟨found, hfound⟩ := hs.heap.exists_error hn
  exact ⟨hbefore, found, hfound, hsame.trans hfound⟩

/-- **Context among shared errors.** After any steps, context is refused when its node has a
cause, and otherwise when the node is held elsewhere; else the report of the context is put in
front of the error. Whatever comes of it, the errors that are still held are the same as
before, but for that of the context if it is given a cause, and no node holds itself. -/
theorem addContext_step (steps : List Step) {handle context : Handle} {e c : Nat}
    (he : (empty.after steps).error? handle = some e)
    (hc : (empty.after steps).error? context = some c) (name : Option Handle) :
    let s := empty.after steps
    let result := (s.step ⟨.addContext handle context, name⟩).1.result
    let s' := (s.step ⟨.addContext handle context, name⟩).2
    (s.heap.cause? c ≠ none → ∃ fault, result = .error (.noContext fault) ∧
      fault.message = "consequent error must not already have a cause") ∧
    (s.heap.cause? c = none → s.HeldElsewhere context e c →
      ∃ fault, result = .error (.noContext fault) ∧
        fault.message = "called `Option::unwrap()` on a `None` value") ∧
    (s.heap.cause? c = none → ¬ s.HeldElsewhere context e c →
      ∃ report inner, s.heap.error? c = some (.ofReport report) ∧
        s.heap.error? e = some inner ∧ result = .ok (.error (inner.under report))) ∧
    (∀ n, s'.Holds n → ((∃ answer, result = .ok answer) → n ≠ c) →
      s.Holds n ∧ ∃ found, s.heap.error? n = some found ∧ s'.heap.error? n = some found) ∧
    ∀ n, ¬ TransGen s'.heap.Points n n := by
  intro s result s'
  have hs : s.Sound := sound_empty.after steps
  have hroots := hs.roots_lt he context
  have hacyclic : ∀ n, ¬ TransGen s'.heap.Points n n := (hs.step _).heap.acyclic
  have hrefused : ∀ fault, s.heap.context (s.without context).roots e c = .error fault →
      result = .error (.noContext fault) ∧ ∀ n, s'.Holds n →
        s.Holds n ∧ ∃ found, s.heap.error? n = some found ∧ s'.heap.error? n = some found := by
    intro fault hfault
    obtain ⟨hresult, hcalm⟩ := step_addContext_error he hc hfault name
    refine ⟨hresult, fun n hn => hcalm.change.stays hs ?_ hn nofun⟩
    exact congrArg ErrorHeap.size hcalm.heap
  by_cases hcause : s.heap.cause? c = none
  · by_cases hheld : s.HeldElsewhere context e c
    · obtain ⟨hresult, hstays⟩ := hrefused _
        (hs.heap.context_of_reaches hroots hcause (heldElsewhere_iff.mp hheld))
      exact ⟨fun hsome => absurd hcause hsome, fun _ _ => ⟨_, hresult, rfl⟩,
        fun _ hfree => absurd hheld hfree, fun n hn _ => hstays n hn, hacyclic⟩
    · have hok := hs.heap.context_of_free hroots hcause fun h => hheld (heldElsewhere_iff.mpr h)
      obtain ⟨report, inner, hreport, hinner, hfound⟩ :=
        hs.heap.error?_setCause_self hcause (hs.keeps_lt c (keeps_of_error? hc))
          (hs.keeps_lt e (keeps_of_error? he)) fun hreach => hheld (.inl hreach)
      obtain ⟨hresult, hchange⟩ := step_addContext_ok hs he hc hok hfound name
      refine ⟨fun hsome => absurd hcause hsome, fun _ h => absurd h hheld,
        fun _ _ => ⟨report, inner, hreport, hinner, hresult⟩, fun n hn hne => ?_, hacyclic⟩
      refine hchange.stays hs ?_ hn ?_
      · rw [hchange.heap]
        exact ErrorHeap.size_setCause _ _ _
      · rintro c' e' heq
        exact (Effect.cause.inj heq).1 ▸ hne ⟨_, hresult⟩
  · obtain ⟨hresult, hstays⟩ := hrefused _ (ErrorHeap.context_of_cause hcause _ _)
    exact ⟨fun _ => ⟨_, hresult, rfl⟩, fun h => absurd h hcause, fun h => absurd h hcause,
      fun n hn _ => hstays n hn, hacyclic⟩

/-- A store that answers with an error holds it, though no name is left for the error. -/
theorem addContext_step_failing_store :
    let steps : List Step :=
      [⟨.newError (.report (.remark "table is gone")), some "cause"⟩,
        ⟨.newError (.report (.remark "listing records")), some "context"⟩,
        ⟨.newBase (.failing "context") [], some "base"⟩]
    (empty.after steps).error? "cause" = some 0 ∧
      (empty.after steps).error? "context" = some 1 ∧
      ∃ fault, ((empty.after steps).step ⟨.addContext "cause" "context", none⟩).1.result =
          .error (.noContext fault) ∧
        fault.message = "called `Option::unwrap()` on a `None` value" := by
  intro steps
  have he : (empty.after steps).error? "cause" = some 0 := rfl
  have hc : (empty.after steps).error? "context" = some 1 := rfl
  have hstore : ((empty.after steps).without "context").Root [] 1 :=
    .inr ⟨0, ⟨.base ⟨0, none⟩, .inr ⟨"base", rfl⟩, rfl⟩, rfl⟩
  exact ⟨he, hc, (addContext_step steps he hc none).2.1 rfl (.inr ⟨1, hstore, .refl⟩)⟩

end Session

end RecordQuery
