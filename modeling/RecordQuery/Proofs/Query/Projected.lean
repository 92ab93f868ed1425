import RecordQuery.Proofs.NameMap
import RecordQuery.Proofs.Query.FieldList
import RecordQuery.Proofs.Table.Project

/-!
# Projecting and Decoding

Choosing fields of a table before a query is run shows what a query for all fields shows, cut
down afterwards: the rows are those of the same records, with the chosen names alone. Choosing
all fields shows the same rows altogether, and only the field list of the request tells that
they were chosen.

## Main results

* `Query.setAll_new_eq_map` — what is chosen and what is set do not touch one another;
* `Row.picks_decode` — the row of chosen fields against the row of all fields;
* `Query.execute_project` — the same for whole runs and their requests.
-/

namespace RecordQuery

/-! ### Rows -/

/-- Whether a row has the id of another row and, under some of its names alone, what it has
there, be it a value or nothing. -/
structure Row.Picks (names : List String) (whole row : Row) : Prop where
  id : row.id = whole.id
  /-- The names come once each, in the order in which they first come. -/
  keys : row.fields.keys = names.eraseDups
  get? : ∀ name ∈ names, row.fields.get? name = whole.fields.get? name

/-- **Declared names pick from the row of all fields.** -/
theorem Row.picks_decode {table : Table} {names : List String} {p : Projection}
    (hkeys : p.fields.keys = names.eraseDups)
    (hget : ∀ name ∈ names, p.get? name = table.field? name) (record : Record) :
    Picks names (decode record table.projection) (decode record p) where
  id := rfl
  keys := (NameMap.keys_map _ _).trans hkeys
  get? name hname := by
    have hfield : p.fields.get? name = table.projection.fields.get? name := hget name hname
    rw [decode, decode, NameMap.get?_map, NameMap.get?_map, hfield]

namespace Query

/-! ### Queries -/

/-- What fields are chosen makes no difference to the settings, nor to whether they can be
made. -/
theorem setAll_new_eq_map (base : Base) (table : Table) (chosen : Option Projection)
    (settings : List Setting) :
    (new base table chosen).setAll settings =
      ((new base table none).setAll settings).map fun q => { q with chosen := chosen } := by
  rw [setAll_eq, setAll_eq]
  cases (settings.filterMap Setting.filter?).mapM fun f : Filter => f.compile.result with
  | error reason => rfl
  | ok formulas => rfl

/-- A query for all fields of its table sends no field list. -/
theorem fields_options_of_none {q : Query} (h : q.chosen = none) : q.options.fields = none := by
  rw [fields_options, h]

/-- Choosing all fields of a table changes the request when there are some. -/
theorem fields_options_whole (q : Query) :
    ({ q with chosen := some q.table.projection } : Query).options.fields = none ↔
      q.table.fields.keys = [] := by
  rw [fields_options, NameMap.keys, List.map_eq_nil_iff]
  show (if q.table.fields.entries = [] then none else some _) = none ↔ _
  split <;> simp [*]

/-- **Projecting and decoding change places.** Names that a table declares make a projection.
A query with this projection can be configured like one for all fields; on the same records its
rows pick the names from the rows of the other, row by row. A query with the projection of all
fields gives the same rows as the one for all fields. Its request is the same but for the field
list, and the same altogether just for a table without fields. -/
theorem execute_project (base : Base) {table : Table} {names : List String}
    (h : ∀ name ∈ names, name ∈ table.fields.keys) (settings : List Setting)
    (records : List Record) :
    let made := fun chosen => (new base table chosen).setAll settings
    ∃ p, table.project names = .ok p ∧
      (∀ chosen reason, made chosen = .error reason ↔ made none = .error reason) ∧
      ∀ all, made none = .ok all →
        ∃ few whole rows picked,
          made (some p) = .ok few ∧ made (some table.projection) = .ok whole ∧
          (execute base all.build (.ok records)).result = .ok rows ∧
          (execute base few.build (.ok records)).result = .ok picked ∧
          List.Forall₂ (Row.Picks names) rows picked ∧
          (execute base whole.build (.ok records)).result = .ok rows ∧
          all.build.options.fields = none ∧
          whole.build.request =
            ⟨all.build.table, { all.build.options with fields := whole.build.options.fields }⟩ ∧
          (whole.build.request = all.build.request ↔ table.fields.keys = []) := by
  intro made
  obtain ⟨p, hp, hkeys, hget⟩ := Table.exists_project h
  have hmade : ∀ chosen, made chosen = (made none).map fun q => { q with chosen := chosen } :=
    fun chosen => setAll_new_eq_map base table chosen settings
  refine ⟨p, hp, fun chosen reason => ?_, fun all hall => ?_⟩
  · rw [hmade chosen]
    cases made none <;> simp [Except.map]
  · obtain ⟨-, hsettings⟩ := setAll_new hall
    have htable : all.table = table := by rw [hsettings]
    have hchosen : all.chosen = none := by rw [hsettings]
    have hprojection : all.build.projection = table.projection := by
      show all.chosen.getD all.table.projection = _
      rw [hchosen, htable, Option.getD_none]
    have hfields := fields_options_of_none hchosen
    have hok : ∀ chosen, made chosen = .ok { all with chosen := chosen } := fun chosen => by
      rw [hmade, hall, Except.map]
    refine ⟨_, _, _, _, hok _, hok _, rfl, rfl, ?_, ?_, hfields, rfl, ?_⟩
    · rw [hprojection]
      exact List.forall₂_map_left_iff.mpr <| List.forall₂_map_right_iff.mpr <|
        List.forall₂_same.mpr fun record _ => Row.picks_decode hkeys hget record
    · rw [hprojection]
      rfl
    · have hwhole : ({ all with chosen := some table.projection } : Query).options.fields = none ↔
          table.fields.keys = [] := by
        rw [← htable]
        exact fields_options_whole all
      rw [← hwhole]
      constructor
      · exact fun heq => (congrArg (fun r : Request => r.options.fields) heq).trans hfields
      · exact fun hnone => congrArg
          (fun fields => (⟨all.build.table, { all.build.options with fields := fields }⟩ : Request))
          (hnone.trans hfields.symm)

/-- Names in another order than the table has them, one of them twice and two on one remote
field that a record lacks. -/
theorem execute_project_repeated :
    let name : Field := ⟨0, .text, "Name"⟩
    let table := Table.ofList "People"
      [("name", name), ("age", ⟨1, .number, "Age"⟩), ("alias", name)]
    let names := ["alias", "age", "name", "age"]
    let record := Record.ofList "rec1" [("Age", .null)]
    (∀ declared ∈ names, declared ∈ table.fields.keys) ∧
      ∃ p few picked, table.project names = .ok p ∧
        (new ⟨0, none⟩ table (some p)).setAll [.view "Grid"] = .ok few ∧
        (execute ⟨0, none⟩ few.build (.ok [record])).result = .ok [picked] ∧
        picked.fields.keys = ["alias", "age", "name"] ∧
        picked.fields.get? "age" = some (some .null) ∧ picked.fields.get? "name" = some none := by
  intro name table names record
  have hnames : ∀ declared ∈ names, declared ∈ table.fields.keys := by decide
  obtain ⟨p, hp, -, hruns⟩ := execute_project ⟨0, none⟩ hnames [.view "Grid"] [record]
  obtain ⟨few, whole, rows, picked, hfew, -, hrows, hpicked, hpicks, -⟩ := hruns _ rfl
  obtain rfl : rows = [Row.decode record table.projection] := (Except.ok.inj hrows).symm
  obtain ⟨row, rest, hrow, hrest, rfl⟩ := List.forall₂_cons_left_iff.mp hpicks
  obtain rfl := List.forall₂_nil_left_iff.mp hrest
  refine ⟨hnames, p, few, row, hp, hfew, hpicked, hrow.keys.trans (by decide), ?_, ?_⟩
  · exact hrow.get? "age" (by decide)
  · exact hrow.get? "name" (by decide)

end Query

end RecordQuery
