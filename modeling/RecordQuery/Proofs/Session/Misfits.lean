import RecordQuery.Proofs.Row.Reading
import RecordQuery.Proofs.Session.Perform

/-!
# Rows that Do Not Fit

A row is read value by value, or as a whole into a structure, by itself or with all rows of a
run. A value that cannot be read is misread, which is a matter of types. A row that does not fit
the structure as a whole is told by the decoder of the structure, and its error is passed on as
it is: it comes from outside and is of no kind, though it is a matter of types as well.

## Main results

* `Session.result_runAs` — a run reads its rows one by one;
* `Session.reads_misfits` — which errors come of reading a row.
-/

namespace RecordQuery

/-! ### Whole rows -/

namespace Row

variable {row : Row} {shape : Shape}

/-- A row is read as a whole when the object of it fits the shape. -/
theorem deserialize_eq_ok_iff {x : shape.Value} :
    row.deserialize shape = .ok x ↔ shape.decode row.toObject = .ok x := mapError_eq_ok_iff

/-- A row that does not fit a shape is told by what the decoder says. -/
theorem deserialize_eq_error_iff {e : Error} :
    row.deserialize shape = .error e ↔
      ∃ fault, shape.decode row.toObject = .error fault ∧ e = .external fault.message :=
  mapError_eq_error_iff

/-- A row without a value that a structure needs does not fit, and its error is not told from any
other error from outside. -/
theorem deserialize_missing_age :
    let row := Row.ofList "rec1" [("name", some (.string "Alice"))]
    ∃ e, row.deserialize Target.strict.shape = .error e ∧ e.display = "missing field `age`" ∧
      e.isTypeConversion = false :=
  ⟨_, rfl, by decide, rfl⟩

end Row

/-! ### The rows of a run -/

namespace Action

variable {α β : Type}

/-- Results that are taken one by one leave the session as it is. -/
theorem exec_mapM_ofExcept (f : β → Except Error α) (xs : List β) (s : Session) :
    exec (xs.mapM fun x => ofExcept (f x)) s = ((xs.mapM f).mapError .failed, s) := by
  induction xs with
  | nil => rfl
  | cons x xs ih =>
      rw [List.mapM_cons, List.mapM_cons, exec_bind]
      cases f x with
      | error e => rfl
      | ok y =>
          have htaken : exec (ofExcept (.ok y)) s = (.ok y, s) := rfl
          rw [htaken]
          simp only
          rw [exec_bind, ih]
          cases xs.mapM f <;> rfl

end Action

namespace Session

open RecordQuery.Action

variable {s : Session} {handle : Handle} {target : Target} {q : Query} {service : Service}
  {records : List Record}

/-- **A run reads its rows one by one.** Where the store answers with records, each is decoded
and read as a structure, and the first that does not fit says why the run fails. -/
theorem result_runAs (hq : s.query? handle = some q)
    (hservice : s.services[q.base.service]? = some service)
    (hrecords : service.response = .records records) (name : Option Handle) :
    (s.step ⟨.runAs handle target, name⟩).1.result =
      ((records.mapM fun record =>
        (Row.decode record q.projection).deserialize target.shape).mapError Refusal.failed).map
          fun values => .values (values.map target.shape.encode) := by
  have hruns : s.started.runs? (.runAs handle target) = some (q.base, q.build) := by
    have hstarted : s.started.query? handle = some q := hq
    rw [runs?, hstarted]
    rfl
  have hanswer : s.started.answer? service.response = some (.ok records) := by
    rw [hrecords]
    rfl
  have hasked : s.started.services[q.base.service]? = some service := hservice
  have hrun : (Operation.runAs handle target).IsRun := trivial
  have hrows : (RecordQuery.execute q.base q.build (.ok records)).result.mapError Refusal.failed =
      .ok (records.map (Row.decode · q.projection)) := rfl
  have hread : (records.map (Row.decode · q.projection)).mapM
      (fun row => row.deserialize target.shape) =
        records.mapM fun record => (Row.decode record q.projection).deserialize target.shape :=
    List.mapM_map
  rw [result_step, exec_perform_run hrun, hruns]
  simp only [deliver]
  rw [executeAs, exec_bind, exec_execute hasked hanswer, hrows]
  simp only
  rw [exec_bind, exec_mapM_ofExcept, hread]
  cases records.mapM fun record => (Row.decode record q.projection).deserialize target.shape <;>
    rfl

/-- A run that reads rows fails as the first row that does not fit, and not otherwise. -/
theorem result_runAs_eq_error_iff (hq : s.query? handle = some q)
    (hservice : s.services[q.base.service]? = some service)
    (hrecords : service.response = .records records) (name : Option Handle) {e : Error} :
    (s.step ⟨.runAs handle target, name⟩).1.result = .error (.failed e) ↔
      ∃ before record after fault, records = before ++ record :: after ∧
        (∀ earlier ∈ before, ∃ x,
          target.shape.decode (Row.decode earlier q.projection).toObject = .ok x) ∧
        target.shape.decode (Row.decode record q.projection).toObject = .error fault ∧
        e = .external fault.message := by
  have hfailed {x : Except Error (List target.shape.Value)} {f : _ → Answer} :
      (x.mapError Refusal.failed).map f = .error (.failed e) ↔ x = .error e :=
    map_eq_error_iff.trans (mapError_eq_error_iff.trans (by simp))
  rw [result_runAs hq hservice hrecords, hfailed, mapM_eq_error_iff]
  simp only [Row.deserialize_eq_ok_iff, Row.deserialize_eq_error_iff, exists_and_left]

/-- **What comes of reading a row that is not as expected.** A value that cannot be read, alone or
as an attachment, is a matter of types. A row that does not fit a structure as a whole, by itself
or in a run, has an error of no kind, which is what the decoder says. -/
theorem reads_misfits (s : Session) (handle : Handle) (name : Option Handle) :
    (∀ (row : Row) key (accessor : Accessor) e, accessor.read row key = .error e →
      e.kind = .typeConversion) ∧
    (∀ (row : Row) shape e, row.deserialize shape = .error e →
      e.kind = .other ∧
        ∃ fault, shape.decode row.toObject = .error fault ∧ e = .external fault.message) ∧
    ∀ q service records target e, s.query? handle = some q →
      s.services[q.base.service]? = some service → service.response = .records records →
      (s.step ⟨.runAs handle target, name⟩).1.result = .error (.failed e) →
        e.kind = .other ∧ ∃ record ∈ records, ∃ fault,
          target.shape.decode (Row.decode record q.projection).toObject = .error fault ∧
            e = .external fault.message := by
  refine ⟨fun row key accessor e h => ?_, fun row shape e h => ?_,
    fun q service records target e hq hservice hrecords h => ?_⟩
  · obtain ⟨found, target, rfl⟩ := Accessor.exists_misread h
    exact Error.kind_misread key found target
  · obtain ⟨fault, hfault, rfl⟩ := Row.deserialize_eq_error_iff.mp h
    exact ⟨rfl, fault, hfault, rfl⟩
  · obtain ⟨before, record, after, fault, rfl, -, hfault, rfl⟩ :=
      (result_runAs_eq_error_iff hq hservice hrecords name).mp h
    exact ⟨rfl, record, by simp, fault, hfault, rfl⟩

/-- A run over a record without an age, read as a structure that needs one. -/
theorem reads_misfits_missing_age :
    let steps : List Step :=
      [⟨.newField .number "Age" false, some "age"⟩,
        ⟨.newTable "Users" [("age", "age")], some "users"⟩,
        ⟨.newBase (.listed [("rec1", [("Age", .integer 30)]), ("rec2", [])]) [], some "base"⟩,
        ⟨.newQuery "base" "users" none, some "query"⟩]
    let s := empty.after steps
    ∃ e, (s.step ⟨.runAs "query" .strict, none⟩).1.result = .error (.failed e) ∧
      e.kind = .other ∧ e.display = "missing field `age`" := by
  intro steps s
  obtain ⟨-, -, hrun⟩ := reads_misfits s "query" none
  have hresult : (s.step ⟨.runAs "query" .strict, none⟩).1.result =
      .error (.failed (.external "missing field `age`")) := rfl
  exact ⟨_, hresult, (hrun _ _ _ .strict _ rfl rfl rfl hresult).1, Error.display_ofReport _⟩

end Session

end RecordQuery
