import RecordQuery.Proofs.Session.Misfits

/-!
# The Log of a Run

A run of a descriptor tells the log what it asks for, every record that it decodes and how many
there were, all within its own span. Where the store fails, nothing is told after the request. A
run never warns: its filter is text by then, and the quotes in the literals of an expression were
told when the expression was made a filter.

## Main results

* `Descriptor.events_execute` — the log of one run on one answer;
* `Session.events_run` — every way to run a descriptor tells the same;
* `Session.events_filter` — setting a filter tells the quotes in it, once each;
* `Session.logs_run` — the log of runs after any steps.
-/

namespace RecordQuery

/-- A line of the log: an event as whoever reads the log is told of it. -/
structure LogLine where
  level : Level
  message : String
  /-- The details that are told. -/
  fields : List (String × EventValue)
  /-- The name and the fields of the span within which the event happened, if any. -/
  span : Option (String × List (String × String))
  deriving DecidableEq

/-- The line of an event. -/
def Event.line (event : Event) : LogLine :=
  ⟨event.level, event.message, event.fields,
    event.span?.map fun span => (Span.name, span.fields)⟩

/-- The warning about a text literal that holds a quote, which lies in no span. -/
def LogLine.quote (literal : String) : LogLine :=
  ⟨.warn, "string literal contains a single quote and is rendered unescaped",
    [("literal", .text literal)], none⟩

namespace Descriptor

variable (d : Descriptor) (base : Base)

/-- The span of a run: the remote name of the table, and the label of the base or nothing. -/
def logSpan : String × List (String × String) :=
  ("list_records", [("table", d.table), ("base", base.label.getD "")])

/-- What is told of the request: the filter and the view where they are set, and how many sort keys
and fields there are. -/
def listingLine : LogLine :=
  ⟨.debug, "listing records",
    (d.options.filter.map fun formula => ("filter", EventValue.text formula)).toList ++
      [("sorts", .count (d.options.sort.elim 0 List.length)),
        ("fields", .count (d.options.fields.elim 0 List.length))] ++
      (d.options.view.map fun view => ("view", EventValue.text view)).toList,
    some (d.logSpan base)⟩

/-- What is told of a record. -/
def decodingLine (record : Record) : LogLine :=
  ⟨.trace, "decoding record", [("id", .text record.id)], some (d.logSpan base)⟩

/-- What is told of an answer once its records are decoded. -/
def decodedLine (count : Nat) : LogLine :=
  ⟨.debug, "decoded records", [("records", .count count)], some (d.logSpan base)⟩

/-- What the log is told of a run: the request, and every record and their number where the store
answers with records. -/
def log : Except Error (List Record) → List LogLine
  | .error _ => [d.listingLine base]
  | .ok records =>
    d.listingLine base :: records.map (d.decodingLine base) ++ [d.decodedLine base records.length]

variable {d base}

/-- **The log of one run on one answer.** -/
theorem events_execute (answer : Except Error (List Record)) :
    (execute base d answer).events.map Event.line = d.log base answer := by
  cases answer with
  | error e => rfl
  | ok records =>
      have hdecoding : (records.map fun record => Event.decoding (d.span base) record.id).map
          Event.line = records.map (d.decodingLine base) := List.map_map
      simp only [execute, log, List.map_cons, List.map_append, hdecoding]
      rfl

/-- All that is told of a run is told within its span, and nothing of it is a warning. -/
theorem of_mem_log {answer : Except Error (List Record)} {line : LogLine}
    (h : line ∈ d.log base answer) :
    line.span = some (d.logSpan base) ∧ line.level ≠ .warn := by
  cases answer with
  | error e =>
      obtain rfl := List.mem_singleton.mp h
      exact ⟨rfl, nofun⟩
  | ok records =>
      simp only [log, List.mem_append, List.mem_cons, List.mem_map, List.not_mem_nil,
        or_false] at h
      obtain (rfl | ⟨record, -, rfl⟩) | rfl := h <;> exact ⟨rfl, nofun⟩

end Descriptor

/-! ### The events of a step -/

namespace Action

variable {s : Session}

/-- What is done with the rows of a run, or with the error of its store, changes the session no
further. -/
theorem session_deliver (op : Operation) (base : Base) (d : Descriptor) (s : Session) :
    (exec (deliver op base d) s).2 = (exec (execute base d) s).2 := by
  have hrows : (exec (executeRows base d) s).2 = (exec (execute base d) s).2 := by
    rw [executeRows, exec_bind]
    rcases exec (execute base d) s with ⟨_ | _, s'⟩ <;> rfl
  cases op with
  | executeForError _ _ | runForError _ =>
      rw [deliver, executeForError, exec_tryCatch, ← hrows]
      rcases exec (executeRows base d) s with ⟨refusal | result, s'⟩
      · simp only
        rw [exec_bind, exec_get]
        simp only
        split <;> rfl
      · rfl
  | runAs _ target =>
      rw [deliver, executeAs, exec_bind]
      rcases exec (execute base d) s with ⟨refusal | rows, s'⟩
      · rfl
      · simp only
        rw [exec_bind, exec_mapM_ofExcept]
        cases rows.mapM fun row => row.deserialize target.shape <;> rfl
  | _ => exact hrows

/-- Making a setting tells what the setting tells, whether it can be made or not. -/
theorem session_configure (q : Query) (setting : Setting) (s : Session) :
    (exec (configure q setting) s).2 = { s with events := s.events ++ setting.events } := by
  rw [configure, exec_bind, report, exec_modify]
  simp only
  cases q.set setting <;> rfl

end Action

namespace Session

open RecordQuery.Action

variable {s : Session}

/-- The events of a step are those of its operation: keeping what was made tells nothing. -/
theorem events_step (s : Session) (step : Step) :
    (s.step step).1.events = (exec (perform step.operation) s.started).2.events := by
  have hevents : (s.step step).1.events = (s.step step).2.events := rfl
  rw [hevents]
  rcases hexec : exec (perform step.operation) s.started with ⟨refusal | ⟨answer, product⟩, s'⟩
  · rw [(step_of_error step hexec).2]
  · obtain ⟨names, hnames⟩ :=
      exists_names_keepNamed (step.name.or step.operation.defaultName) product s'
    rw [(step_of_ok step hexec).2, hnames]

/-- **Every way to run a descriptor tells the same**, whatever is made of the rows or the error:
the log of the run on the answer of the store. -/
theorem events_run (hs : s.Sound) {op : Operation} {base : Base} {d : Descriptor}
    (hruns : s.runs? op = some (base, d)) (name : Option Handle) :
    ∃ service answer, s.services[base.service]? = some service ∧
      s.answer? service.response = some answer ∧
      (s.step ⟨op, name⟩).1.events.map Event.line = d.log base answer := by
  have hstarted : s.started.Sound := s.calm_started.sound hs
  have hleads : s.Leads [] base.service := leads_of_runs? hruns
  obtain ⟨service, hservice⟩ := hstarted.exists_service hleads
  obtain ⟨answer, hanswer⟩ := hstarted.exists_answer hservice
  have hevents : (s.step ⟨op, name⟩).1.events = (RecordQuery.execute base d answer).events := by
    have hruns' : s.started.runs? op = some (base, d) := hruns
    rw [events_step, exec_perform_run (isRun_of_runs? hruns), hruns']
    simp only [session_deliver, exec_execute hservice hanswer]
    exact List.nil_append _
  exact ⟨service, answer, hservice, hanswer, hevents ▸ Descriptor.events_execute answer⟩

/-- **Setting a filter tells the quotes in it, once each**, after what building its expression
tells. -/
theorem events_filter {handle : Handle} {q : Query} {recipe : Recipe} {e : Expr} {s' : Session}
    (hq : s.query? handle = some q) (he : exec recipe.build s.started = (.ok e, s'))
    (name : Option Handle) :
    (s.step ⟨.filter handle (.expr recipe), name⟩).1.events.map Event.line =
      s'.events.map Event.line ++ e.compile.quotes.map LogLine.quote := by
  have hq' : s.started.query? handle = some q := hq
  have hfilter : exec (filter (.expr recipe)) s.started = (.ok (.expr e), s') := by
    rw [filter, exec_bind, he]
    rfl
  rw [events_step, perform, exec_bind, exec_query, hq']
  simp only [bound_some]
  rw [exec_bind, hfilter]
  simp only [session_configure, Setting.events, Filter.compile, Compilation.events]
  rw [List.map_append, List.map_map]
  rfl

/-- A filter that is text tells nothing. -/
theorem events_filter_text {handle : Handle} {q : Query} (hq : s.query? handle = some q)
    (formula : String) (name : Option Handle) :
    (s.step ⟨.filter handle (.text formula), name⟩).1.events = [] := by
  have hq' : s.started.query? handle = some q := hq
  rw [events_step, perform, exec_bind, exec_query, hq']
  rfl

/-- **The log of runs.** A run on an answer of the store tells what it asks for, then each record
in order and how many there were, or nothing more where the store fails; all of it within the span
of the run, and none of it as a warning. After any steps, every way to run a descriptor tells
exactly this for what its store answers. The quotes in the literals of an expression are told when
it is made a filter, once each, and a filter that is text tells nothing. -/
theorem logs_run (steps : List Step) (name : Option Handle) :
    let s := empty.after steps
    (∀ (base : Base) (d : Descriptor) (answer : Except Error (List Record)),
      (RecordQuery.execute base d answer).events.map Event.line = d.log base answer ∧
        ∀ line ∈ d.log base answer, line.level ≠ .warn ∧
          line.span = some ("list_records", [("table", d.table), ("base", base.label.getD "")])) ∧
    (∀ op base d, s.runs? op = some (base, d) →
      ∃ service answer, s.services[base.service]? = some service ∧
        s.answer? service.response = some answer ∧
        (s.step ⟨op, name⟩).1.events.map Event.line = d.log base answer) ∧
    ∀ handle q, s.query? handle = some q →
      (∀ recipe e s', exec (Recipe.build recipe) s.started = (.ok e, s') →
        (s.step ⟨.filter handle (.expr recipe), name⟩).1.events.map Event.line =
          s'.events.map Event.line ++ e.compile.quotes.map LogLine.quote) ∧
      ∀ formula, (s.step ⟨.filter handle (.text formula), name⟩).1.events = [] := by
  intro s
  have hs : s.Sound := sound_empty.after steps
  refine ⟨fun base d answer => ⟨Descriptor.events_execute answer, fun line hline => ?_⟩,
    fun op base d hruns => events_run hs hruns name,
    fun handle q hq => ⟨fun recipe e s' he => events_filter hq he name,
      fun formula => events_filter_text hq formula name⟩⟩
  obtain ⟨hspan, hlevel⟩ := Descriptor.of_mem_log hline
  exact ⟨hlevel, hspan⟩

/-- A quote is told when the filter is set, and not when the query is run. -/
theorem logs_run_quote :
    let steps : List Step :=
      [⟨.newField .text "Full Name" false, some "name"⟩,
        ⟨.newTable "Users" [("name", "name")], some "users"⟩,
        ⟨.newBase (.listed [("rec1", []), ("rec2", [])]) [], some "base"⟩,
        ⟨.newQuery "base" "users" none, some "query"⟩]
    let recipe : Recipe := .compare (.field "name") .eq (.literal (.text "O'Brien"))
    let filter : Step := ⟨.filter "query" (.expr recipe), none⟩
    let span := ("list_records", [("table", "Users"), ("base", "")])
    ((empty.after steps).step filter).1.events.map Event.line = [LogLine.quote "O'Brien"] ∧
      ((empty.after (steps ++ [filter])).step ⟨.run "query", none⟩).1.events.map Event.line =
        [⟨.debug, "listing records",
            [("filter", .text "({Full Name} = 'O'Brien')"), ("sorts", .count 0),
              ("fields", .count 0)], some span⟩,
          ⟨.trace, "decoding record", [("id", .text "rec1")], some span⟩,
          ⟨.trace, "decoding record", [("id", .text "rec2")], some span⟩,
          ⟨.debug, "decoded records", [("records", .count 2)], some span⟩] := by
  intro steps recipe filter span
  obtain ⟨-, -, hfilter⟩ := logs_run steps none
  obtain ⟨-, hrun, -⟩ := logs_run (steps ++ [filter]) none
  refine ⟨(hfilter "query" _ rfl).1 recipe _ _ rfl, ?_⟩
  obtain ⟨service, answer, hservice, hanswer, hlog⟩ := hrun (.run "query") _ _ rfl
  cases hservice
  cases hanswer
  exact hlog

end Session

end RecordQuery
