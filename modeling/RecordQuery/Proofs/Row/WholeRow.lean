import RecordQuery.Proofs.NameMap
import RecordQuery.Row

/-!
# Whole Rows

A row is read into a structure, and written, as one object that holds the id of the record
under the name `id` next to the logical names. Logical names are chosen freely, so one of them
may be `id` as well: where it has a value, the object that is read holds this value and not
the id of the record; and where it is there at all, with or without a value, the written row
names `id` twice. For all other rows the id and every value are where they should be.

## Main results

* `Json.ofMembers_eq_object_iff` — members stay as they are when no name occurs twice;
* `Row.whole_row` — which rows are read and written with their id.
-/

namespace RecordQuery

/-! ### Members of an object -/

/-- **Members stay as they are when no name occurs twice**, and otherwise not. -/
theorem Json.ofMembers_eq_object_iff {members : List (String × Json)} :
    Json.ofMembers members = .object members ↔ (members.map Prod.fst).Nodup := by
  constructor
  · intro h
    rw [← Json.object.inj h]
    exact (NameMap.ofList members).nodup
  · exact fun h => congrArg Json.object (NameMap.empty.entries_insertAll h)

namespace Row

/-! ### The values that are there -/

/-- The values that are there are those that are found under their names. -/
theorem mem_present_iff {row : Row} {name : String} {value : Json} :
    (name, value) ∈ row.present ↔ row.get? name = some value := by
  rw [get?, Option.join_eq_some_iff, ← NameMap.mem_entries_iff, present, List.mem_filterMap]
  constructor
  · rintro ⟨⟨key, found⟩, hentry, hmember⟩
    obtain ⟨there, rfl, heq⟩ := Option.map_eq_some_iff.mp hmember
    cases heq
    exact hentry
  · exact fun hentry => ⟨_, hentry, rfl⟩

/-- The names of the values that are there, in the order of the row. -/
theorem keys_present (row : Row) :
    row.present.map Prod.fst =
      (row.fields.entries.filter fun entry => entry.2.isSome).map Prod.fst := by
  rw [present]
  induction row.fields.entries with
  | nil => rfl
  | cons entry rest ih =>
      obtain ⟨name, found⟩ := entry
      cases found with
      | none => exact ih
      | some value => exact congrArg (name :: ·) ih

/-- No value is there twice. -/
theorem nodup_present (row : Row) : (row.present.map Prod.fst).Nodup := by
  rw [keys_present]
  exact row.fields.nodup.sublist (List.filter_sublist.map Prod.fst)

/-- A name has no value when it is not among those of the values that are there. -/
theorem not_mem_present_iff {row : Row} {name : String} :
    name ∉ row.present.map Prod.fst ↔ row.get? name = none := by
  rw [List.mem_map, Option.eq_none_iff_forall_ne_some]
  constructor
  · exact fun h value hvalue => h ⟨(name, value), mem_present_iff.mpr hvalue, rfl⟩
  · rintro h ⟨⟨key, value⟩, hmem, rfl⟩
    exact h value (mem_present_iff.mp hmem)

/-- The names of a written row are `id` and the logical names. -/
theorem nodup_members_iff (row : Row) :
    (row.members.map Prod.fst).Nodup ↔ row.contains "id" = false := by
  have hkeys : row.members.map Prod.fst = "id" :: row.fields.keys := by
    simp [members, NameMap.keys, List.map_map, Function.comp_def]
  rw [hkeys, List.nodup_cons, NameMap.mem_keys_iff, Bool.not_eq_true]
  exact and_iff_left row.fields.nodup

/-! ### The whole row -/

/-- **Which rows are read and written with their id.** The object that is read holds the id
of the record and the values that are there, each under its name, unless a value is there
under the name `id`. A written row names nothing twice, and is the same as a value, unless
`id` is a logical name. -/
theorem whole_row (row : Row) :
    (∀ name value, (name, value) ∈ row.present ↔ row.get? name = some value) ∧
    (row.toObject = .object (("id", .string row.id) :: row.present) ↔ row.get? "id" = none) ∧
    ((row.members.map Prod.fst).Nodup ↔ row.contains "id" = false) ∧
    (row.toJson = .object row.members ↔ row.contains "id" = false) := by
  refine ⟨fun _ _ => mem_present_iff, ?_, row.nodup_members_iff, ?_⟩
  · rw [toObject, Json.ofMembers_eq_object_iff, List.map_cons, List.nodup_cons,
      not_mem_present_iff]
    exact and_iff_left row.nodup_present
  · rw [toJson, Json.ofMembers_eq_object_iff, nodup_members_iff]

/-- A value under the logical name `id` is read in place of the id of the record, and the
written row names `id` twice. -/
theorem whole_row_named_id :
    let row := Row.ofList "rec1" [("id", some (.string "x")), ("name", some (.string "Alice"))]
    row.id = "rec1" ∧ row.toObject = .object [("id", .string "x"), ("name", .string "Alice")] ∧
      ¬ (row.members.map Prod.fst).Nodup :=
  ⟨rfl, rfl, by decide⟩

end Row

end RecordQuery
