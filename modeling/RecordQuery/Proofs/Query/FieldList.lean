import RecordQuery.Proofs.Query.Settings

/-!
# Field Lists and Rows

A query with an explicit projection asks the store for the remote fields of the projection
alone, and the same projection decodes the answer. So nothing is read that was not asked for:
records that are cut down to the field list give the same rows, and the places of the list
are those of the rows.

## Main results

* `Query.fields_eq_remoteNames` — the field list is that of the projection that decodes;
* `Query.execute_only` — cutting records down to the field list changes no row.
-/

namespace RecordQuery

universe u

/-! ### Cutting down -/

/-- The entries under some of the names. -/
def NameMap.only {α : Type u} (m : NameMap α) (names : List String) : NameMap α :=
  ⟨m.entries.filter fun entry => names.contains entry.1,
    m.nodup.sublist (List.filter_sublist.map Prod.fst)⟩

/-- What is under one of the names is still there. -/
theorem NameMap.get?_only {α : Type u} (m : NameMap α) {names : List String} {key : String}
    (h : key ∈ names) : (m.only names).get? key = m.get? key := by
  have hfind := Entries.find?_filter names.contains key m.entries
  rwa [if_pos (List.contains_iff_mem.mpr h)] at hfind

/-- A record with the values of some remote fields alone. -/
def Record.only (record : Record) (names : List String) : Record :=
  { record with values := record.values.only names }

/-- The row of a record depends on the values that the projection reads alone. -/
theorem Row.decode_congr {record record' : Record} {p : Projection} (hid : record'.id = record.id)
    (h : ∀ name ∈ p.remoteNames, record'.get? name = record.get? name) :
    Row.decode record' p = Row.decode record p := by
  have hfields : (p.fields.map fun field => record'.get? field.remoteName) =
      p.fields.map fun field => record.get? field.remoteName := by
    refine NameMap.ext (List.map_congr_left fun entry hentry => ?_)
    have hread : entry.2.remoteName ∈ p.remoteNames :=
      List.mem_map_of_mem (List.mem_map_of_mem hentry)
    exact congrArg (entry.1, ·) (h _ hread)
  rw [Row.decode, Row.decode, hid, hfields]

/-- The places of a row are those of the remote names. -/
theorem Row.entries_decode (record : Record) (p : Projection) :
    (Row.decode record p).fields.entries =
      p.fields.keys.zipWith (fun logical name => (logical, record.get? name)) p.remoteNames := by
  simp [Row.decode, NameMap.keys, Projection.remoteNames, NameMap.items, List.zipWith_map,
    List.zipWith_self]

namespace Query

/-- A field list is sent for an explicit projection, and the projection that decodes the
answer has the same remote names in the same places. -/
theorem fields_eq_remoteNames {q : Query} {fs : List String}
    (h : q.build.options.fields = some fs) : fs = q.build.projection.remoteNames := by
  have hfields : q.options.fields = some fs := h
  rw [fields_options] at hfields
  cases hchosen : q.chosen with
  | none =>
      rw [hchosen] at hfields
      cases hfields
  | some p =>
      rw [hchosen] at hfields
      simp only at hfields
      split at hfields
      · cases hfields
      · have hprojection : q.build.projection = p := by
          show q.chosen.getD q.table.projection = p
          rw [hchosen, Option.getD_some]
        rw [hprojection, ← Option.some.inj hfields]
        exact List.map_map.symm

/-- **The field list and the rows agree.** When a query sends a field list, records that are
cut down to it give the same run of the query, rows and events alike; every name of the list
is read by the projection; and a row has one entry for every place of the list, read under
the name in this place. -/
theorem execute_only {q : Query} {fs : List String} (h : q.build.options.fields = some fs)
    (base : Base) (records : List Record) :
    execute base q.build (.ok (records.map fun record => record.only fs)) =
        execute base q.build (.ok records) ∧
      (∀ name ∈ fs, ∃ entry ∈ q.build.projection.fields.entries, entry.2.remoteName = name) ∧
      fs.length = q.build.projection.size ∧
      ∀ record, (Row.decode record q.build.projection).fields.entries =
        q.build.projection.fields.keys.zipWith
          (fun logical name => (logical, record.get? name)) fs := by
  have hfs := fields_eq_remoteNames h
  have hdecode : ∀ record : Record,
      Row.decode (record.only fs) q.build.projection = Row.decode record q.build.projection := by
    intro record
    refine Row.decode_congr rfl fun name hname => ?_
    exact record.values.get?_only (hfs ▸ hname)
  refine ⟨?_, ?_, ?_, ?_⟩
  · simp only [execute, List.map_map, List.length_map, Function.comp_def, hdecode]
    rfl
  · intro name hname
    rw [hfs] at hname
    obtain ⟨field, hfield, hremote⟩ := List.mem_map.mp hname
    obtain ⟨entry, hentry, rfl⟩ := List.mem_map.mp hfield
    exact ⟨entry, hentry, hremote⟩
  · rw [hfs, Projection.remoteNames, List.length_map, NameMap.items, List.length_map]
    rfl
  · intro record
    rw [Row.entries_decode, ← hfs]

/-- Two logical names on one remote field, and a record with a field that was not asked for. -/
theorem execute_only_shared_name :
    let name : Field := ⟨0, .text, "Name"⟩
    let q := Query.new ⟨0, none⟩ (.ofList "People" [("name", name)])
      (some (.ofList [("name", name), ("alias", name)]))
    let record := Record.ofList "rec1" [("Age", .integer 30), ("Name", .string "Alice")]
    q.build.options.fields = some ["Name", "Name"] ∧
      (record.only ["Name", "Name"]).values.entries = [("Name", .string "Alice")] ∧
      execute q.base q.build (.ok [record.only ["Name", "Name"]]) =
        execute q.base q.build (.ok [record]) := by
  intro name q record
  have hfields : q.build.options.fields = some ["Name", "Name"] := rfl
  exact ⟨hfields, rfl, (execute_only hfields q.base [record]).1⟩

end Query

end RecordQuery
