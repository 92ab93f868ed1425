import RecordQuery.Proofs.NameMap
import RecordQuery.Row
import RecordQuery.Table

/-!
# First Places and Last Items

Tables, schemas, projections, rows and records are made of lists of entries, in which a name may
come more than once. All of them *settle* such a list in the same way: each name stays where it
came first, and has the item that came last. Whatever is asked of a container, it answers for
that one map.

## Main results

* `Entries.Settled.unique` — there is one way of settling a list;
* `NameMap.settled_ofList` — the map of a list settles it;
* `Schema.remoteName_of_table?` — tables are found under their own names;
* `Projection.foldl_insert`, `Record.foldl_insert` — containers that are made step by step;
* `containers_settled` — what is seen of the five containers.
-/

namespace RecordQuery

universe u

/-! ### Settled entries -/

namespace Entries

variable {α : Type u} {given listed listed' : List (String × α)} {found found' : String → Option α}
  {known known' : String → Bool} {count count' : Nat}

/-- What is seen of a container in which the entries `given` have been put one after the other:
the entries `listed` in it, the item `found` under a name, whether a name is `known`, and the
`count` of its entries. -/
structure Settled (given listed : List (String × α)) (found : String → Option α)
    (known : String → Bool) (count : Nat) : Prop where
  /-- The names are listed in the order in which they first came. -/
  names : listed.map Prod.fst = (given.map Prod.fst).eraseDups
  /-- No name is listed twice. -/
  nodup : (listed.map Prod.fst).Nodup
  /-- Under a name is the item that came last. -/
  found_last : ∀ name, found name = last? name given
  /-- What is listed is what is found. -/
  mem_listed_iff : ∀ name item, (name, item) ∈ listed ↔ found name = some item
  /-- Known are the names that have come. -/
  known_iff : ∀ name, known name = true ↔ name ∈ given.map Prod.fst
  /-- A name is known if something is found. -/
  known_isSome : ∀ name, known name = (found name).isSome
  /-- Counted is what is listed. -/
  count_listed : count = listed.length
  /-- There are as many entries as different names have come. -/
  count_names : count = (given.map Prod.fst).toFinset.card

/-- The entries that a list comes to, by its names. -/
theorem Settled.listed_eq (h : Settled given listed found known count) :
    listed = (given.map Prod.fst).eraseDups.filterMap fun name =>
      (last? name given).map (Prod.mk name) := by
  have hentries := NameMap.entries_eq_filterMap ⟨listed, h.nodup⟩
  have hget : ∀ name, NameMap.get? ⟨listed, h.nodup⟩ name = last? name given := fun name =>
    Option.ext fun item =>
      NameMap.mem_entries_iff.symm.trans
        ((h.mem_listed_iff name item).trans (h.found_last name ▸ Iff.rfl))
  simp only [hget] at hentries
  rw [← h.names]
  exact hentries

/-- **A list is settled in one way**: what is given determines all that is seen. -/
theorem Settled.unique (h : Settled given listed found known count)
    (h' : Settled given listed' found' known' count') :
    listed = listed' ∧ found = found' ∧ known = known' ∧ count = count' := by
  have hfound : found = found' :=
    funext fun name => (h.found_last name).trans (h'.found_last name).symm
  refine ⟨h.listed_eq.trans h'.listed_eq.symm, hfound, funext fun name => ?_,
    h.count_names.trans h'.count_names.symm⟩
  rw [h.known_isSome, h'.known_isSome, hfound]

end Entries

open Entries

/-- **The map of a list settles it.** -/
theorem NameMap.settled_ofList {α : Type u} (given : List (String × α)) :
    Settled given (ofList given).entries (ofList given).get? (ofList given).contains
      (ofList given).size := by
  have hkeys : (ofList given).keys = (given.map Prod.fst).eraseDups := empty.keys_insertAll given
  have hfound : ∀ name, (ofList given).get? name = last? name given := fun name =>
    (empty.get?_insertAll given name).trans Option.or_none
  exact {
    names := hkeys
    nodup := (ofList given).nodup
    found_last := hfound
    mem_listed_iff := fun name item => mem_entries_iff
    known_iff := fun name => by rw [contains, hfound, isSome_last?_iff]
    known_isSome := fun name => rfl
    count_listed := rfl
    count_names := size_eq_card hkeys }

/-! ### The containers -/

namespace Schema

variable {tables : List Table} {name : String} {table : Table}

/-- **Tables are found under their own names.** -/
theorem remoteName_of_table? (h : (ofList tables).table? name = some table) :
    table.remoteName = name := by
  have hlast : last? name (tables.map fun table => (table.remoteName, table)) = some table :=
    ((NameMap.settled_ofList _).found_last name).symm.trans h
  obtain ⟨given, -, heq⟩ := List.mem_map.mp (mem_of_last? hlast)
  obtain ⟨rfl, rfl⟩ := Prod.mk.inj heq
  rfl

/-- A schema lists its tables, and with each of them the name that it is under. -/
theorem items_ofList (tables : List Table) :
    ((ofList tables).tables.items.map fun table => (table.remoteName, table)) =
      (ofList tables).tables.entries := by
  rw [NameMap.items, List.map_map]
  refine (List.map_congr_left fun entry hentry => ?_).trans (List.map_id _)
  have hname : entry.2.remoteName = entry.1 :=
    remoteName_of_table? (NameMap.mem_entries_iff.mp hentry)
  exact Prod.ext hname rfl

end Schema

/-- **Projections are made all at once or field by field**, or the one after the other: it is only
the order of the entries that counts. -/
theorem Projection.foldl_insert (given later : List (String × Field)) :
    later.foldl (fun p entry => p.insert entry.1 entry.2) (ofList given) =
      ofList (given ++ later) := by
  induction later generalizing given with
  | nil => rw [List.append_nil, List.foldl_nil]
  | cons entry rest ih =>
      have hinsert : (ofList given).insert entry.1 entry.2 = ofList (given ++ [entry]) :=
        congrArg Projection.mk (NameMap.ofList_append given [entry]).symm
      rw [List.foldl_cons, hinsert, ih, List.append_assoc, List.singleton_append]

/-- Values that are put in a record one after the other, all at once. Nothing else changes. -/
theorem Record.foldl_insert (record : Record) (given : List (String × Json)) :
    given.foldl (fun record entry => record.insert entry.1 entry.2) record =
      { record with values := record.values.insertAll given } := by
  induction given generalizing record with
  | nil => rfl
  | cons entry rest ih => exact ih (record.insert entry.1 entry.2)

/-- **First places and last items** in all containers: the fields of a table, the tables of a
schema under their remote names, the fields of a projection, and the values of rows and records
are settled, and what is asked of a container, of its names, its items or its size, is answered
for the one settled list. A projection does not tell in which way it was made, and a schema finds
no table under a name that is not its own. -/
theorem containers_settled :
    (∀ remoteName given, let table := Table.ofList remoteName given
      Settled given table.fields.entries table.field? (fun name => (table.field? name).isSome)
          table.fields.size ∧
        table.remoteName = remoteName ∧ table.projection = .ofList given) ∧
      (∀ tables, let schema := Schema.ofList tables
        let named := fun table : Table => (table.remoteName, table)
        Settled (tables.map named) (schema.tables.items.map named) schema.table?
            (fun name => (schema.table? name).isSome) schema.size ∧
          ∀ name table, schema.table? name = some table → table.remoteName = name) ∧
      (∀ given later,
        let p := later.foldl (fun p entry => p.insert entry.1 entry.2) (Projection.ofList given)
        Settled (given ++ later) p.fields.entries p.get? p.contains p.size ∧
          p = .ofList (given ++ later)) ∧
      (∀ id given, let row := Row.ofList id given
        Settled given row.fields.entries row.fields.get? row.contains row.fields.size ∧
          row.id = id ∧ ∀ name, row.get? name = (last? name given).join) ∧
      ∀ record given,
        let filled : Record :=
          given.foldl (fun record entry => record.insert entry.1 entry.2) record
        Settled (record.values.entries ++ given) filled.values.entries filled.get?
            filled.values.contains filled.values.size ∧
          filled.id = record.id ∧ filled.createdTime = record.createdTime := by
  refine ⟨fun remoteName given => ⟨NameMap.settled_ofList given, rfl, rfl⟩, fun tables => ?schema,
    fun given later => ?projection, fun id given => ?row, fun record given => ?record⟩
  case schema =>
    refine ⟨?_, fun name table => Schema.remoteName_of_table?⟩
    rw [Schema.items_ofList]
    exact NameMap.settled_ofList _
  case projection =>
    rw [Projection.foldl_insert]
    exact ⟨NameMap.settled_ofList _, rfl⟩
  case row =>
    have hsettled := NameMap.settled_ofList given
    exact ⟨hsettled, rfl, fun name => congrArg Option.join (hsettled.found_last name)⟩
  case record =>
    rw [Record.foldl_insert, NameMap.insertAll_eq_ofList]
    exact ⟨NameMap.settled_ofList _, rfl, rfl⟩

/-- A schema of three tables, two of which have the same name. -/
theorem containers_settled_repeated :
    let older := Table.ofList "Users" []
    let newer := Table.ofList "Users" [("name", ⟨0, .text, "Full Name"⟩)]
    let teams := Table.ofList "Teams" []
    let schema := Schema.ofList [older, teams, newer]
    schema.tables.items = [newer, teams] ∧ schema.size = 2 ∧
      schema.table? "Users" = some newer ∧ newer.remoteName = "Users" := by
  intro older newer teams schema
  have hfound : schema.table? "Users" = some newer := rfl
  exact ⟨rfl, rfl, hfound, (containers_settled.2.1 [older, teams, newer]).2 "Users" newer hfound⟩

end RecordQuery
