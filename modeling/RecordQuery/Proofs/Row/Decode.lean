import RecordQuery.Proofs.NameMap
import RecordQuery.Proofs.Query.FieldList

/-!
# Decoding an Answer

A store answers with records, and each record becomes a row: under every logical name of the
projection stands what the record has under the remote name of the field, as it is, and nothing
where the record has nothing. A value that is `null` is a value. Nothing else of a record comes
into its row.

## Main results

* `Row.shows_decode` — what the row of a record holds;
* `execute_records` — a run gives one row for each record, in order.
-/

namespace RecordQuery

/-! ### The row of a record -/

/-- Whether a row is what a projection shows of a record. -/
structure Row.Shows (p : Projection) (record : Record) (row : Row) : Prop where
  id : row.id = record.id
  /-- The names of the row are the logical names, in order. -/
  keys : row.fields.keys = p.fields.keys
  /-- No name comes twice. -/
  nodup : row.fields.keys.Nodup
  /-- Under a logical name stands the value under the remote name of its field, and no other. -/
  value : ∀ name field, (name, field) ∈ p.fields.entries → ∀ value : Json,
    (name, some value) ∈ row.fields.entries ↔ (field.remoteName, value) ∈ record.values.entries
  /-- A logical name has no value exactly when the record has none under the remote name. -/
  absent : ∀ name field, (name, field) ∈ p.fields.entries →
    ((name, none) ∈ row.fields.entries ↔ field.remoteName ∉ record.values.keys)

namespace Row

/-- What stands in a decoded row under a logical name. -/
theorem get?_decode {record : Record} {p : Projection} {name : String} {field : Field}
    (h : (name, field) ∈ p.fields.entries) :
    (Row.decode record p).fields.get? name = some (record.get? field.remoteName) := by
  rw [decode, NameMap.get?_map, NameMap.mem_entries_iff.mp h, Option.map_some]

/-- **The row of a record** is what the projection shows of it. -/
theorem shows_decode (record : Record) (p : Projection) :
    Shows p record (Row.decode record p) where
  id := rfl
  keys := NameMap.keys_map _ _
  nodup := (Row.decode record p).fields.nodup
  value name field h value := by
    rw [NameMap.mem_entries_iff, NameMap.mem_entries_iff, get?_decode h, Option.some_inj]
    rfl
  absent name field h := by
    rw [NameMap.mem_entries_iff, get?_decode h, Option.some_inj, NameMap.mem_keys_iff,
      NameMap.contains]
    exact Option.not_isSome_iff_eq_none.symm

end Row

/-! ### All rows of an answer -/

/-- Whether two records have one id and the same values under some remote names. -/
structure Record.AgreesOn (names : List String) (a b : Record) : Prop where
  id : a.id = b.id
  get? : ∀ name ∈ names, a.get? name = b.get? name

/-- **A run loses, adds and changes nothing.** When a store answers with records, a run gives one
row for each record, in order, which is what the projection of the descriptor shows of the
record. Records that agree on the ids and on the remote names of the projection give the same
rows. -/
theorem execute_records (base : Base) (d : Descriptor) (records : List Record) :
    (∃ rows, (execute base d (.ok records)).result = .ok rows ∧
      List.Forall₂ (Row.Shows d.projection) records rows) ∧
    ∀ records', List.Forall₂ (Record.AgreesOn d.projection.remoteNames) records records' →
      (execute base d (.ok records')).result = (execute base d (.ok records)).result := by
  refine ⟨⟨_, rfl, ?_⟩, fun records' hagree => ?_⟩
  · exact List.forall₂_map_right_iff.mpr
      (List.forall₂_same.mpr fun record _ => Row.shows_decode record d.projection)
  · have hrows : records'.map (Row.decode · d.projection) =
        records.map (Row.decode · d.projection) := by
      induction hagree with
      | nil => rfl
      | cons hrecord _ ih =>
          rw [List.map_cons, List.map_cons, ih,
            Row.decode_congr hrecord.id.symm fun name hname => (hrecord.get? name hname).symm]
    exact congrArg Except.ok hrows

/-- Two logical names on one remote field, a `null`, and two records that differ in a field that
is not in the projection. -/
theorem execute_records_shared_name :
    let name : Field := ⟨0, .text, "Name"⟩
    let p := Projection.ofList [("alias", name), ("age", ⟨1, .number, "Age"⟩), ("name", name)]
    let d : Descriptor := ⟨"People", ⟨none, none, none, none⟩, p⟩
    let record := Record.ofList "rec1" [("Age", .null)]
    let other := Record.ofList "rec1" [("City", .string "Oslo"), ("Age", .null)]
    record.AgreesOn p.remoteNames other ∧
      (execute ⟨0, none⟩ d (.ok [other])).result = (execute ⟨0, none⟩ d (.ok [record])).result ∧
      ∃ row, (execute ⟨0, none⟩ d (.ok [record])).result = .ok [row] ∧
        ("age", some .null) ∈ row.fields.entries ∧ ("name", none) ∈ row.fields.entries := by
  intro name p d record other
  obtain ⟨⟨rows, hrows, hshows⟩, hagree⟩ := execute_records ⟨0, none⟩ d [record]
  have hnames : p.remoteNames = ["Name", "Age", "Name"] := rfl
  have hsame : record.AgreesOn p.remoteNames other :=
    ⟨rfl, hnames ▸ List.forall_mem_cons.mpr ⟨rfl, List.forall_mem_cons.mpr
      ⟨rfl, List.forall_mem_singleton.mpr rfl⟩⟩⟩
  obtain ⟨row, rest, hrow, hrest, rfl⟩ := List.forall₂_cons_left_iff.mp hshows
  obtain rfl := List.forall₂_nil_left_iff.mp hrest
  refine ⟨hsame, hagree [other] (.cons hsame .nil), row, hrows, ?_, ?_⟩
  · exact (hrow.value "age" _ (List.mem_cons_of_mem _ List.mem_cons_self) .null).mpr
      List.mem_cons_self
  · exact (hrow.absent "name" name (List.mem_cons_of_mem _ (List.mem_cons_of_mem _
      List.mem_cons_self))).mpr (by decide)

end RecordQuery
