import RecordQuery.Proofs.Projection.Equality
import RecordQuery.Proofs.Query.Projected
import RecordQuery.Proofs.Session.Trail

/-!
# Running Equal Descriptors

The field list of a request and the entries of a row stand in the order of a projection, and
equality of projections does not look at that order. So equal projections need not give equal
requests and rows as lists. They give requests that are *alike*, with one field list in another
order, and executions that are alike, with rows that are equal as rows are compared.

Fields are compared by their making, and requests and rows are made from remote names. What
leads from one to the other is the ledger of a session: fields of one making that come up in one
run are one field. That goes for descriptors of any origin, since all parts of a descriptor may be
chosen by hand.

## Main results

* `execute_alike` — alike requests and projections that read alike give alike executions;
* `Session.readsAs_of_covers` — projections of fields of one run read alike if they are equal;
* `Session.execute_of_same` — what is equal in a run is run alike.
-/

namespace RecordQuery

/-! ### Requests and executions that are alike -/

/-- Whether two requests are the same but for the order of the field list. -/
structure Request.Alike (a b : Request) : Prop where
  table : a.table = b.table
  filter : a.options.filter = b.options.filter
  sort : a.options.sort = b.options.sort
  view : a.options.view = b.options.view
  /-- One list is sent in two orders, or none is sent. -/
  fields : Option.Rel List.Perm a.options.fields b.options.fields

theorem Request.Alike.refl (request : Request) : request.Alike request where
  table := rfl
  filter := rfl
  sort := rfl
  view := rfl
  fields := by
    cases request.options.fields with
    | none => exact .none
    | some names => exact .some (.refl names)

/-- Whether two executions on one answer of a store cannot be told apart: they report the same
events, and they fail with the error of the store or give as many rows as there are records,
the same ones as rows are compared. -/
structure Execution.Alike (answer : Except Error (List Record)) (x y : Execution) : Prop where
  events : x.events = y.events
  failed : ∀ e, answer = .error e → x.result = .error e ∧ y.result = .error e
  rows : ∀ records, answer = .ok records → ∃ xs ys, x.result = .ok xs ∧ y.result = .ok ys ∧
    xs.length = records.length ∧ List.Forall₂ Row.Alike xs ys ∧
    ((∀ record ∈ records, record.WellFormed) → List.Forall₂ (fun a b => a.same b = true) xs ys)

/-- **Alike requests and projections that read alike give alike executions.** -/
theorem execute_alike {a b : Descriptor} (hrequest : a.request.Alike b.request)
    (h : a.projection.ReadsAs b.projection) (base : Base) (answer : Except Error (List Record)) :
    Execution.Alike answer (execute base a answer) (execute base b answer) := by
  have hspan : a.span base = b.span base := by
    rw [Descriptor.span, Descriptor.span, show a.table = b.table from hrequest.table]
  have hcount : a.options.fields.elim 0 List.length = b.options.fields.elim 0 List.length := by
    have hfields : Option.Rel List.Perm a.options.fields b.options.fields := hrequest.fields
    revert hfields
    generalize a.options.fields = names, b.options.fields = others
    rintro (hperm | _)
    · exact hperm.length_eq
    · rfl
  constructor
  · have hfilter : a.options.filter = b.options.filter := hrequest.filter
    have hsort : a.options.sort = b.options.sort := hrequest.sort
    have hview : a.options.view = b.options.view := hrequest.view
    cases answer <;> simp only [execute, hspan, hcount, hfilter, hsort, hview]
  · rintro e rfl
    exact ⟨rfl, rfl⟩
  · rintro records rfl
    refine ⟨_, _, rfl, rfl, List.length_map _, ?_, fun hvalues => ?_⟩
    · exact List.forall₂_map_left_iff.mpr <| List.forall₂_map_right_iff.mpr <|
        List.forall₂_same.mpr fun record _ => h.alike record
    · exact List.forall₂_map_left_iff.mpr <| List.forall₂_map_right_iff.mpr <|
        List.forall₂_same.mpr fun record hrecord =>
          (h.alike record).same fun _ _ => (hvalues record hrecord).of_decode

/-- Queries that differ in projections that read alike send alike requests. -/
theorem Query.request_alike {p q : Projection} (h : p.ReadsAs q) (settings : Query) :
    ({ settings with chosen := some p } : Query).build.request.Alike
      ({ settings with chosen := some q } : Query).build.request where
  table := rfl
  filter := rfl
  sort := rfl
  view := rfl
  fields := by
    show Option.Rel List.Perm (((some p).filter fun p => !p.isEmpty).map Projection.remoteNames)
      (((some q).filter fun p => !p.isEmpty).map Projection.remoteNames)
    rw [Option.filter_some, Option.filter_some, h.isEmpty_eq]
    cases q.isEmpty with
    | true => exact .none
    | false => exact .some h.perm_remoteNames

/-! ### Whole runs -/

namespace Session

/-- The answers of a run, in order. -/
def answers (steps : List Step) : List Answer :=
  (run steps).filterMap fun outcome => outcome.result.toOption

theorem mem_answers_iff {steps : List Step} {answer : Answer} :
    answer ∈ answers steps ↔ ∃ outcome ∈ run steps, outcome.result = .ok answer := by
  rw [answers, List.mem_filterMap]
  refine exists_congr fun outcome => and_congr_right fun _ => ?_
  cases outcome.result <;> simp [Except.toOption]

/-- Fields of one making that come up in the answers of one run have one name. -/
theorem remoteName_of_answers {steps : List Step} {x y : Answer} (hx : x ∈ answers steps)
    (hy : y ∈ answers steps) {f g : Field} (hf : f ∈ x.shown) (hg : g ∈ y.shown)
    (hstamp : f.stamp = g.stamp) : f.remoteName = g.remoteName := by
  obtain ⟨made, -, hledger, hshown, -⟩ := Ledger.empty.after steps
  have hmade : ∀ x ∈ answers steps, x.shown ⊆ made := by
    intro x hx
    obtain ⟨outcome, houtcome, hok⟩ := mem_answers_iff.mp hx
    exact hshown outcome houtcome x hok
  rw [hledger.eq_of_stamp (hmade x hx hf) (hmade y hy hg) hstamp]

/-- Whether a run has answered with every field of a projection, whoever made the projection. -/
def Covers (steps : List Step) (p : Projection) : Prop :=
  ∀ f ∈ p.fields.items, ∃ answer ∈ answers steps, f ∈ answer.shown

variable {steps : List Step} {p q : Projection}

/-- What a run answers with is made of fields of its answers. -/
theorem covers_of_mem_answers {answer : Answer} (h : answer ∈ answers steps)
    (hp : p.fields.items ⊆ answer.shown) : Covers steps p :=
  fun _ hf => ⟨answer, h, hp hf⟩

/-- Equal projections read alike if the run has answered with their fields. -/
theorem readsAs_of_covers (hp : Covers steps p) (hq : Covers steps q) (hsame : p.same q = true) :
    p.ReadsAs q := by
  refine Projection.readsAs_of_same (fun f hf g hg hstamp => ?_) hsame
  obtain ⟨x, hx, hf⟩ := hp f hf
  obtain ⟨y, hy, hg⟩ := hq g hg
  exact remoteName_of_answers hx hy hf hg hstamp

/-- **Equal descriptors and equal projections run alike.** Equality of projections is an
equivalence; two projections are equal when, under every name, they choose fields of one making
or both choose none. Of any two descriptors of fields that have come up in one run, built by a
query or made by hand with any options, equal ones send the same request and give alike executions
on every base and every answer of its store. Queries of any settings with two projections of such
fields, if these are equal, can be made or fail together; they send requests that are the same but
for the order of the field list, and give alike executions on every answer. -/
theorem execute_of_same (steps : List Step) :
    (Equivalence fun p q : Projection => p.same q = true) ∧
      (∀ p q : Projection, p.same q = true ↔
        ∀ name, Option.Rel (fun f g => f.same g = true) (p.get? name) (q.get? name)) ∧
      (∀ a b : Descriptor, Covers steps a.projection → Covers steps b.projection →
        a.same b = true →
        a.request = b.request ∧ ∀ base answer,
          Execution.Alike answer (execute base a answer) (execute base b answer)) ∧
      ∀ p q, Covers steps p → Covers steps q → p.same q = true →
        ∀ base table settings,
          let made := fun chosen => (Query.new base table (some chosen)).setAll settings
          (∀ reason, made p = .error reason ↔ made q = .error reason) ∧
            ∀ x y, made p = .ok x → made q = .ok y →
              x.build.request.Alike y.build.request ∧ ∀ answer,
                Execution.Alike answer (execute base x.build answer)
                  (execute base y.build answer) := by
  refine ⟨Projection.same_equivalence, fun _ _ => Projection.same_iff, ?_, ?_⟩
  · intro a b ha hb hsame
    obtain ⟨hoptions, hprojection⟩ := Bool.and_eq_true_iff.mp hsame
    obtain ⟨htable, hoptions⟩ := Bool.and_eq_true_iff.mp hoptions
    have hrequest : a.request = b.request := by
      rw [Descriptor.request, Descriptor.request, beq_iff_eq.mp htable, beq_iff_eq.mp hoptions]
    have hreads : a.projection.ReadsAs b.projection := readsAs_of_covers ha hb hprojection
    exact ⟨hrequest, fun base answer => execute_alike (hrequest ▸ .refl _) hreads base answer⟩
  · intro p q hp hq hsame base table settings made
    have hreads : p.ReadsAs q := readsAs_of_covers hp hq hsame
    have hmade : ∀ chosen, made chosen =
        ((Query.new base table none).setAll settings).map fun x =>
          { x with chosen := some chosen } :=
      fun chosen => Query.setAll_new_eq_map base table (some chosen) settings
    rw [hmade p, hmade q]
    cases (Query.new base table none).setAll settings with
    | error reason => exact ⟨fun _ => Iff.rfl, nofun⟩
    | ok configured =>
        refine ⟨fun _ => ⟨nofun, nofun⟩, ?_⟩
        rintro x y ⟨⟩ ⟨⟩
        have hrequest := Query.request_alike hreads configured
        exact ⟨hrequest, execute_alike hrequest hreads base⟩

/-- Two fields chosen in two orders: the field lists of the queries differ, and the rows are equal
with their values in two orders. So they are for two descriptors made by hand, which ask for an
empty field list, as no query does. -/
theorem execute_of_same_reordered :
    let steps : List Step :=
      [⟨.newField .text "Name" false, some "name"⟩, ⟨.newField .number "Age" false, some "age"⟩,
        ⟨.newProjection [("who", "name"), ("old", "age")], none⟩,
        ⟨.newProjection [("old", "age"), ("who", "name")], none⟩]
    let name : Field := ⟨0, .text, "Name"⟩
    let age : Field := ⟨1, .number, "Age"⟩
    let p := Projection.ofList [("who", name), ("old", age)]
    let q := Projection.ofList [("old", age), ("who", name)]
    let query := fun chosen => Query.new ⟨0, none⟩ (Table.ofList "People" []) (some chosen)
    let byHand : Projection → Descriptor := .mk "People" ⟨none, none, some [], none⟩
    let answer : Except Error (List Record) := .ok [.ofList "rec1" [("Age", .integer 7)]]
    let xs := [Row.ofList "rec1" [("who", none), ("old", some (.integer 7))]]
    let ys := [Row.ofList "rec1" [("old", some (.integer 7)), ("who", none)]]
    (Covers steps p ∧ Covers steps q ∧ p.same q = true) ∧
      ((query p).options.fields = some ["Name", "Age"] ∧
        (query q).options.fields = some ["Age", "Name"] ∧
        (execute ⟨0, none⟩ (query p).build answer).result = .ok xs ∧
        (execute ⟨0, none⟩ (query q).build answer).result = .ok ys ∧
        Execution.Alike answer (execute ⟨0, none⟩ (query p).build answer)
          (execute ⟨0, none⟩ (query q).build answer)) ∧
      (byHand p).same (byHand q) = true ∧ (byHand p).request = (byHand q).request ∧
        (execute ⟨0, none⟩ (byHand p) answer).result = .ok xs ∧
        (execute ⟨0, none⟩ (byHand q) answer).result = .ok ys ∧
        Execution.Alike answer (execute ⟨0, none⟩ (byHand p) answer)
          (execute ⟨0, none⟩ (byHand q) answer) := by
  intro steps name age p q query byHand answer xs ys
  have hanswers : answers steps =
      [.field name none, .field age none, .projection p, .projection q] := rfl
  have hp : Covers steps p :=
    covers_of_mem_answers (hanswers ▸ by simp : .projection p ∈ answers steps) (List.Subset.refl _)
  have hq : Covers steps q :=
    covers_of_mem_answers (hanswers ▸ by simp : .projection q ∈ answers steps) (List.Subset.refl _)
  have hsame : p.same q = true := by decide
  have hbyHand : (byHand p).same (byHand q) = true := by decide
  obtain ⟨-, -, hdescriptors, hprojections⟩ := execute_of_same steps
  have hruns := hprojections p q hp hq hsame ⟨0, none⟩ (Table.ofList "People" []) []
  obtain ⟨hrequest, halike⟩ := hdescriptors (byHand p) (byHand q) hp hq hbyHand
  exact ⟨⟨hp, hq, hsame⟩, ⟨rfl, rfl, rfl, rfl, (hruns.2 (query p) (query q) rfl rfl).2 answer⟩,
    hbyHand, hrequest, rfl, rfl, halike _ answer⟩

end Session

end RecordQuery
