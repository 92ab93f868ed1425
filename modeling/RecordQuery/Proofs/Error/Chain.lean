import RecordQuery.Error.Outline
import RecordQuery.Proofs.Error.Heap

/-!
# Chains of Causes

An error is told from its newest report down to its root. Its reports sit in the nodes of a
heap, and the *chain* of a node leads from it by way of the causes to a node without one. In a
sound heap every node has a chain, and the error of the node is made of the reports of the
chain, none left out and in order.

A report of the record store tells the message of the failure and then those of its sources,
however many there are; any other report tells one message. All that the reports of an error
tell, in one row, is the text of the error. It is written in one go along the chain, with a colon
in front of every message but the first.

## Main results

* `Report.message_service`, `Error.display_eq_foldl` — messages are written link by link;
* `Error.tells_reports` — an error is told, and is of a kind, by all of its reports;
* `Error.display_under` — a report in front of an error is told first;
* `ErrorHeap.Sound.exists_chain` — every node has a chain, and its error the reports of it.
-/

namespace RecordQuery

/-! ### What reports tell -/

/-- The messages that a report tells, the outermost first. -/
def Report.told : Report → List String
  | .service failure => failure.message :: failure.sources
  | other => [other.message]

/-- Every report tells something. -/
theorem Report.told_ne_nil (report : Report) : report.told ≠ [] := by
  cases report <;> exact List.cons_ne_nil _ _

/-- The message of a report is what it tells. -/
theorem Report.message_eq (report : Report) : report.message = ": ".intercalate report.told := by
  cases report with
  | service failure => rfl
  | _ => exact String.intercalate_singleton.symm

/-- Rows that are joined one by one and then with each other are joined in one go, if none of
them is empty. -/
theorem intercalate_flatMap {α : Type} {separator : String} {rows : α → List String}
    (h : ∀ x, rows x ≠ []) (xs : List α) :
    separator.intercalate (xs.flatMap rows) =
      separator.intercalate (xs.map fun x => separator.intercalate (rows x)) := by
  induction xs with
  | nil => rfl
  | cons x rest ih =>
      rw [List.flatMap_cons, List.map_cons]
      cases rest with
      | nil => simp
      | cons y rest =>
          have hrest : (y :: rest).flatMap rows ≠ [] := by
            rw [List.flatMap_cons]
            exact List.append_ne_nil_of_left_ne_nil (h y) _
          rw [String.intercalate_append_of_ne_nil (h x) hrest, ih, List.map_cons,
            String.intercalate_cons_cons]

/-! ### Writing link by link -/

/-- A joined row is written link by link: the first text, and then each of the others behind a
separator. -/
theorem intercalate_cons_eq_foldl (separator first : String) (rest : List String) :
    separator.intercalate (first :: rest) =
      rest.foldl (fun written next => written ++ separator ++ next) first := by
  induction rest generalizing first with
  | nil => exact String.intercalate_singleton
  | cons next rest ih =>
      calc separator.intercalate (first :: next :: rest)
          = first ++ separator ++ separator.intercalate (next :: rest) :=
            String.intercalate_cons_cons
        _ = separator.intercalate ((first ++ separator ++ next) :: rest) :=
            String.intercalate_cons_append.symm
        _ = (next :: rest).foldl (fun written next => written ++ separator ++ next) first := ih _

/-- **A failure of the record store is written link by link**: its own message, and then its
sources, each behind a colon. -/
theorem Report.message_service (failure : Failure) :
    message (.service failure) =
      failure.sources.foldl (fun written source => written ++ ": " ++ source) failure.message :=
  intercalate_cons_eq_foldl _ _ _

/-- **An error is written link by link**: the newest report, and then its causes, each behind a
colon. -/
theorem Error.display_eq_foldl (e : Error) :
    e.display =
      e.causes.foldl (fun written report => written ++ ": " ++ report.message) e.newest.message := by
  rw [display, messages, reports, List.map_cons, intercalate_cons_eq_foldl, List.foldl_map]

/-! ### What errors tell -/

namespace Error

/-- Whether an error is what reports tell, newest first: it reads as all their messages in a
row, and it is of the kinds that any of them is of. -/
structure Tells (e : Error) (reports : List Report) : Prop where
  display : e.display = ": ".intercalate (reports.flatMap Report.told)
  debug : e.debug false = e.display
  isService : e.isService = true ↔ ∃ report ∈ reports, report.isService = true
  isInvalidStatement :
    e.isInvalidStatement = true ↔ ∃ report ∈ reports, report.isInvalidStatement = true
  isTypeConversion :
    e.isTypeConversion = true ↔ ∃ report ∈ reports, report.isTypeConversion = true

/-- **An error is what its reports tell.** -/
theorem tells_reports (e : Error) : e.Tells e.reports where
  display := by
    have hmessages : e.messages = e.reports.map fun report => ": ".intercalate report.told :=
      List.map_congr_left fun report _ => report.message_eq
    rw [display, hmessages, intercalate_flatMap Report.told_ne_nil]
  debug := rfl
  isService := List.any_eq_true
  isInvalidStatement := List.any_eq_true
  isTypeConversion := List.any_eq_true

/-- **A report in front of an error is told first**, and the error after it. -/
theorem display_under (e : Error) (report : Report) :
    (e.under report).display = report.message ++ ": " ++ e.display := by
  rw [display, messages_under]
  exact String.intercalate_cons_of_ne_nil (List.cons_ne_nil _ _)

/-- Whether an error is told as one error in front of another, and is of the kinds of both. -/
structure Joins (e front behind : Error) : Prop where
  display : e.display = front.display ++ ": " ++ behind.display
  debug : e.debug false = e.display
  isService : e.isService = true ↔ front.isService = true ∨ behind.isService = true
  isInvalidStatement :
    e.isInvalidStatement = true ↔
      front.isInvalidStatement = true ∨ behind.isInvalidStatement = true
  isTypeConversion :
    e.isTypeConversion = true ↔ front.isTypeConversion = true ∨ behind.isTypeConversion = true

/-- A report in front of an error is told as an error of its own. -/
theorem joins_under (e : Error) (report : Report) :
    (e.under report).Joins (ofReport report) e where
  display := by rw [display_under, display_ofReport]
  debug := rfl
  isService := by rw [isService_under, isService_ofReport, Bool.or_eq_true]
  isInvalidStatement := by
    rw [isInvalidStatement_under, isInvalidStatement_ofReport, Bool.or_eq_true]
  isTypeConversion := by rw [isTypeConversion_under, isTypeConversion_ofReport, Bool.or_eq_true]

end Error

/-! ### Chains in a heap -/

namespace ErrorHeap

variable {heap : ErrorHeap} {n : Nat} {nodes : List Nat}

/-- Whether nodes lead from one cause to the next, from a node to one without a cause. -/
inductive Chain (heap : ErrorHeap) : Nat → List Nat → Prop where
  | root {n : Nat} (h : heap.cause? n = none) : heap.Chain n [n]
  | caused {n cause : Nat} {nodes : List Nat} (h : heap.cause? n = some cause)
      (behind : heap.Chain cause nodes) : heap.Chain n (n :: nodes)

/-- The report that a node makes by itself. -/
def report? (heap : ErrorHeap) (n : Nat) : Option Report :=
  heap.nodes[n]?.bind fun node => node.content.report? heap.error?

/-- A node that is given a cause has it. -/
theorem cause?_setCause_self {c e : Nat} (hc : c < heap.size) :
    (heap.setCause c e).cause? c = some e := by
  rw [cause?, nodes_setCause_self hc, Option.bind_some]

/-- A node holds its cause. -/
theorem points_of_cause {cause : Nat} (h : heap.cause? n = some cause) : heap.Points n cause := by
  obtain ⟨node, hnode, hcause⟩ := Option.bind_eq_some_iff.mp h
  rw [Points, targets_eq hnode, ErrorNode.mem_targets]
  exact .inr hcause

/-- The error of a node is its own report, in front of the error of its cause if it has one. -/
theorem Sound.error?_eq_report (hs : heap.Sound) (hn : n < heap.size) :
    ∃ report, heap.report? n = some report ∧
      heap.error? n =
        match heap.cause? n with
        | none => some (.ofReport report)
        | some cause => (heap.error? cause).map fun e => e.under report := by
  have hnode : heap.nodes[n]? = some heap.nodes[n] := List.getElem?_eq_getElem hn
  obtain ⟨found, hfound⟩ := hs.exists_error hn
  have hread := hs.error?_eq_read hnode
  obtain ⟨report, hreport, -⟩ := Option.bind_eq_some_iff.mp (hread.symm.trans hfound)
  refine ⟨report, ?_, ?_⟩
  · rw [report?, hnode, Option.bind_some, hreport]
  · have hcause : heap.cause? n = heap.nodes[n].cause := by rw [cause?, hnode, Option.bind_some]
    have hown : heap.nodes[n].read heap.error? = _ :=
      congrArg (Option.bind · _) hreport
    rw [hcause]
    exact hread.trans hown

/-- **Every node has a chain**, and its error is made of the reports of the nodes in it. -/
theorem Sound.exists_chain (hs : heap.Sound) (hn : n < heap.size) :
    ∃ nodes e, heap.Chain n nodes ∧ heap.error? n = some e ∧
      List.Forall₂ (fun m report => heap.report? m = some report) nodes e.reports := by
  -- A cause holds fewer nodes than what it is the cause of.
  induction hrank : heap.rank n using Nat.strong_induction_on generalizing n with
  | _ rank ih =>
      obtain ⟨report, hreport, herror⟩ := hs.error?_eq_report hn
      cases hcause : heap.cause? n with
      | none =>
          rw [hcause] at herror
          exact ⟨[n], _, .root hcause, herror, .cons hreport .nil⟩
      | some cause =>
          have hpoints := points_of_cause hcause
          obtain ⟨nodes, inner, hchain, hinner, hreports⟩ :=
            ih (heap.rank cause) (hrank ▸ hs.rank_lt hpoints) (hs.inside hpoints) rfl
          rw [hcause] at herror
          simp only [hinner, Option.map_some] at herror
          exact ⟨n :: nodes, _, .caused hcause hchain, herror, .cons hreport hreports⟩

end ErrorHeap

end RecordQuery
