import Mathlib.Data.Finset.Card
import RecordQuery.NameMap

/-!
# Building Ordered Maps

A map that is built entry by entry has each name once, in the place of its first entry. Entries
whose names are all different are taken over as they are.

## Main results

* `NameMap.entries_insertAll` — entries under new names go last, in order;
* `NameMap.keys_insert_append`, `NameMap.keys_insertAll` — names in the order of their first
  entries;
* `NameMap.get?_insertAll` — under each name the item of its last entry;
* `NameMap.ext_get?` — a map is its names in order and what is found under them;
* `NameMap.items_ofList_subset` — no items but those that were put in.
-/

namespace RecordQuery

universe u v

/-! ### Repetitions -/

/-- What is left when repetitions are left out is all different. -/
theorem nodup_eraseDups {α : Type} [DecidableEq α] : ∀ items : List α, items.eraseDups.Nodup
  | [] => List.nodup_nil
  | item :: rest => by
    rw [List.eraseDups_cons, List.nodup_cons]
    refine ⟨fun hmem => ?_, nodup_eraseDups _⟩
    have hrest := List.mem_eraseDups.mp hmem
    simp at hrest
termination_by items => items.length
decreasing_by exact Nat.lt_succ_of_le (List.length_filter_le _ _)

/-- What is left when repetitions are left out is counted like a set. -/
theorem length_eraseDups {α : Type} [DecidableEq α] (items : List α) :
    items.eraseDups.length = items.toFinset.card := by
  rw [← List.toFinset_card_of_nodup (nodup_eraseDups items)]
  congr 1
  ext item
  rw [List.mem_toFinset, List.mem_toFinset, List.mem_eraseDups]

/-! ### Entries as a list -/

namespace Entries

variable {α : Type u}

/-- What is put under a new name goes last. -/
theorem put_of_not_mem {name : String} {item : α} {entries : List (String × α)}
    (h : name ∉ entries.map Prod.fst) : put name item entries = entries ++ [(name, item)] := by
  induction entries with
  | nil => rfl
  | cons entry rest ih =>
      rw [List.map_cons, List.mem_cons, not_or] at h
      rw [put, if_neg fun heq => h.1 heq.symm, ih h.2, List.cons_append]

/-- The item of the last entry of that name. -/
def last? (name : String) (entries : List (String × α)) : Option α :=
  ((entries.filter fun entry => entry.1 = name).map Prod.snd).getLast?

/-- Of two lists one behind the other, it is the second one that counts. -/
theorem last?_append (name : String) (entries others : List (String × α)) :
    last? name (entries ++ others) = (last? name others).or (last? name entries) := by
  rw [last?, List.filter_append, List.map_append, List.getLast?_append]
  rfl

/-- The first entry counts if there is no later one of its name. -/
theorem last?_cons (name : String) (entry : String × α) (rest : List (String × α)) :
    last? name (entry :: rest) =
      (last? name rest).or (if name = entry.1 then some entry.2 else none) := by
  have hone : last? name [entry] = if name = entry.1 then some entry.2 else none := by
    by_cases h : name = entry.1
    · simp [last?, h]
    · simp [last?, h, Ne.symm h]
  rw [← hone, ← last?_append, List.singleton_append]

/-- The last item under a name came under it. -/
theorem mem_of_last? {name : String} {item : α} {entries : List (String × α)}
    (h : last? name entries = some item) : (name, item) ∈ entries := by
  obtain ⟨⟨key, found⟩, hmem, rfl⟩ := List.mem_map.mp (List.mem_of_getLast? h)
  obtain ⟨hentry, hkey⟩ := List.mem_filter.mp hmem
  exact of_decide_eq_true hkey ▸ hentry

/-- There is a last entry of a name when there is one. -/
theorem isSome_last?_iff {name : String} {entries : List (String × α)} :
    (last? name entries).isSome = true ↔ name ∈ entries.map Prod.fst := by
  simp [last?]

end Entries

/-! ### Maps -/

/-- Entries under new names go last, in order. -/
theorem NameMap.entries_insertAll {α : Type u} (m : NameMap α) {entries : List (String × α)}
    (h : ((m.entries ++ entries).map Prod.fst).Nodup) :
    (m.insertAll entries).entries = m.entries ++ entries := by
  induction entries generalizing m with
  | nil => exact (List.append_nil _).symm
  | cons entry rest ih =>
      have hsplit : m.entries ++ entry :: rest = (m.entries ++ [entry]) ++ rest := by simp
      have hnew : entry.1 ∉ m.entries.map Prod.fst := by
        rw [List.map_append, List.nodup_append] at h
        exact fun hmem => h.2.2 _ hmem _ (List.mem_map_of_mem List.mem_cons_self) rfl
      have hinsert : (m.insert entry.1 entry.2).entries = m.entries ++ [entry] :=
        Entries.put_of_not_mem hnew
      have hrest := ih (m.insert entry.1 entry.2) (by rwa [hinsert, ← hsplit])
      rw [hinsert, ← hsplit] at hrest
      exact hrest

namespace NameMap

variable {α : Type u} {β : Type v}

/-- The entries of a map make the map. -/
@[simp] theorem ofList_entries (m : NameMap α) : ofList m.entries = m :=
  ext (entries_insertAll empty m.nodup)

/-- The entries of a list are inserted behind those of another. -/
theorem ofList_append (entries others : List (String × α)) :
    ofList (entries ++ others) = (ofList entries).insertAll others :=
  List.foldl_append

/-- Insertions carry on with the entries that are there. -/
theorem insertAll_eq_ofList (m : NameMap α) (entries : List (String × α)) :
    m.insertAll entries = ofList (m.entries ++ entries) := by
  rw [ofList_append, ofList_entries]

/-- Changing the items changes what is found. -/
theorem get?_map (f : α → β) (m : NameMap α) (name : String) :
    (m.map f).get? name = (m.get? name).map f := by
  rw [get?, get?, entries_map]
  induction m.entries with
  | nil => rfl
  | cons entry rest ih =>
      by_cases h : entry.1 = name
      · simp [Entries.find?, h]
      · simp [Entries.find?, h, ih]

/-- The names of a map are all different. -/
theorem eraseDups_keys (m : NameMap α) : m.keys.eraseDups = m.keys := by
  have hnodup : m.keys.Nodup := m.nodup
  generalize m.keys = names at hnodup
  induction names with
  | nil => rfl
  | cons name rest ih =>
      obtain ⟨hnew, hrest⟩ := List.nodup_cons.mp hnodup
      have hkeep : rest.filter (fun other => !other == name) = rest :=
        List.filter_eq_self.mpr fun other hmem => by
          simpa using fun heq : other = name => hnew (heq ▸ hmem)
      rw [List.eraseDups_cons, hkeep, ih hrest]

/-- **Names in the order of their first entries**: an insertion adds its name at the end, where
it counts only if it is new. -/
theorem keys_insert_append (m : NameMap α) (name : String) (item : α) (names : List String) :
    ((m.insert name item).keys ++ names).eraseDups = (m.keys ++ name :: names).eraseDups := by
  rw [keys_insert]
  split
  · next h =>
    have hdrop : (name :: names).removeAll m.keys = names.removeAll m.keys := by
      simp [List.removeAll, h]
    rw [List.eraseDups_append, List.eraseDups_append, hdrop]
  · rw [List.append_assoc, List.singleton_append]

/-- The names after insertions are the old ones and the new ones, in the order of their first
entries. -/
theorem keys_insertAll (m : NameMap α) (entries : List (String × α)) :
    (m.insertAll entries).keys = (m.keys ++ entries.map Prod.fst).eraseDups := by
  induction entries generalizing m with
  | nil =>
      rw [List.map_nil, List.append_nil, eraseDups_keys]
      rfl
  | cons entry rest ih => exact (ih _).trans (m.keys_insert_append entry.1 entry.2 _)

/-- Under each name is the item of its last entry, or the old one. -/
theorem get?_insertAll (m : NameMap α) (entries : List (String × α)) (name : String) :
    (m.insertAll entries).get? name = (Entries.last? name entries).or (m.get? name) := by
  induction entries generalizing m with
  | nil => rfl
  | cons entry rest ih =>
      have hentry : (m.insert entry.1 entry.2).get? name =
          (if name = entry.1 then some entry.2 else none).or (m.get? name) := by
        rw [get?_insert]
        split <;> rfl
      rw [Entries.last?_cons, Option.or_assoc, ← hentry]
      exact ih _

/-- The entries are what is found under the names. -/
theorem mem_entries_iff {m : NameMap α} {name : String} {item : α} :
    (name, item) ∈ m.entries ↔ m.get? name = some item :=
  (Entries.find?_eq_some_iff m.nodup).symm

theorem length_keys (m : NameMap α) : m.keys.length = m.size := List.length_map _

/-- A map has as many entries as there are different names. -/
theorem size_eq_card {m : NameMap α} {names : List String} (h : m.keys = names.eraseDups) :
    m.size = names.toFinset.card := by
  rw [← length_keys, h, length_eraseDups]

/-- A name is known when something is found under it. -/
theorem mem_keys_of_get? {m : NameMap α} {name : String} {item : α}
    (h : m.get? name = some item) : name ∈ m.keys := by
  rw [mem_keys_iff, contains, h, Option.isSome_some]

/-- The entries are the names, each with what is found under it. -/
theorem entries_eq_filterMap (m : NameMap α) :
    m.entries = m.keys.filterMap fun name => (m.get? name).map (Prod.mk name) := by
  have hentry : ∀ entry ∈ m.entries, (m.get? entry.1).map (Prod.mk entry.1) = some entry := by
    rintro ⟨name, item⟩ hmem
    rw [mem_entries_iff.mp hmem, Option.map_some]
  rw [keys, List.filterMap_map]
  exact (List.filterMap_some.symm).trans
    (List.filterMap_congr fun entry hmem => (hentry entry hmem).symm)

/-- **A map is its names in order and what is found under them.** -/
theorem ext_get? {m n : NameMap α} (hkeys : m.keys = n.keys)
    (hget : ∀ name ∈ m.keys, m.get? name = n.get? name) : m = n := by
  refine ext ?_
  rw [entries_eq_filterMap, entries_eq_filterMap, ← hkeys]
  exact List.filterMap_congr fun name hname => by rw [hget name hname]

/-- What is found is one of the items. -/
theorem mem_items_of_get? {m : NameMap α} {name : String} {item : α}
    (h : m.get? name = some item) : item ∈ m.items :=
  (m.mem_items_iff item).mpr ⟨name, h⟩

/-- An insertion brings no item but its own. -/
theorem items_insert_subset (m : NameMap α) (name : String) (item : α) :
    (m.insert name item).items ⊆ item :: m.items := by
  intro other hother
  obtain ⟨key, hkey⟩ := (mem_items_iff _ _).mp hother
  rw [get?_insert] at hkey
  split at hkey
  · exact Option.some.inj hkey ▸ List.mem_cons_self
  · exact List.mem_cons_of_mem _ (mem_items_of_get? hkey)

/-- Insertions bring no items but their own. -/
theorem items_insertAll_subset (m : NameMap α) (entries : List (String × α)) :
    (m.insertAll entries).items ⊆ entries.map Prod.snd ++ m.items := by
  induction entries generalizing m with
  | nil => exact List.Subset.refl _
  | cons entry rest ih =>
      refine List.Subset.trans (ih (m.insert entry.1 entry.2)) (List.append_subset.mpr ⟨?_, ?_⟩)
      · exact List.subset_append_of_subset_left _ (List.subset_cons_self _ _)
      · refine List.Subset.trans (m.items_insert_subset entry.1 entry.2)
          (List.cons_subset.mpr ⟨?_, ?_⟩)
        · exact List.mem_append_left _ List.mem_cons_self
        · exact List.subset_append_right _ _

/-- A map of a list holds no items but those of the list. -/
theorem items_ofList_subset (entries : List (String × α)) :
    (ofList entries).items ⊆ entries.map Prod.snd := by
  have h := items_insertAll_subset (empty : NameMap α) entries
  rwa [show (empty : NameMap α).items = [] from rfl, List.append_nil] at h

end NameMap

end RecordQuery
