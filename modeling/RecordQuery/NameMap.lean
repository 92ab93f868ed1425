/-!
# Named Entries in Order

A `NameMap` holds one item per name and remembers the order in which the names first
came. Tables, schemas, projections, rows and the field values of a record are all such
maps, and the order of a request's field list, of a row's entries and of written objects
rests on them.

## Main results

* `NameMap.get?_insert` — an insertion is seen under its own name and under no other;
* `NameMap.keys_insert` — a known name keeps its place, a new one goes last;
* `NameMap.keys_map` — changing the items leaves the names alone;
* `NameMap.get?_erase` — an erased name is gone and the others stay.
-/

namespace RecordQuery

universe u v

/-! ### Entries as a list -/

namespace Entries

variable {α : Type u} {β : Type v}

/-- Puts `item` under `name`: in the place of the entry of that name, else at the end. -/
def put (name : String) (item : α) : List (String × α) → List (String × α)
  | [] => [(name, item)]
  | entry :: rest =>
    if entry.1 = name then (name, item) :: rest else entry :: put name item rest

/-- The item of the first entry of that name. -/
def find? (name : String) : List (String × α) → Option α
  | [] => none
  | entry :: rest => if entry.1 = name then some entry.2 else find? name rest

/-- The names after `put`: unchanged if the name was there, else with it at the end. -/
theorem keys_put (name : String) (item : α) (entries : List (String × α)) :
    (put name item entries).map Prod.fst =
      if name ∈ entries.map Prod.fst then entries.map Prod.fst
      else entries.map Prod.fst ++ [name] := by
  induction entries with
  | nil => simp [put]
  | cons entry rest ih =>
    by_cases h : entry.1 = name
    · simp [put, h]
    · have h' : ¬ name = entry.1 := fun e => h e.symm
      by_cases hm : name ∈ rest.map Prod.fst
      · simp only [put, h, if_false, List.map_cons, ih, hm, if_true, List.mem_cons, h',
          false_or]
      · simp only [put, h, if_false, List.map_cons, ih, hm, if_false, List.mem_cons, h',
          false_or, List.cons_append]

/-- Putting an item never repeats a name. -/
theorem nodup_put {name : String} {item : α} {entries : List (String × α)}
    (h : (entries.map Prod.fst).Nodup) : ((put name item entries).map Prod.fst).Nodup := by
  rw [keys_put]
  split
  · exact h
  · next hm =>
    rw [List.nodup_append]
    refine ⟨h, by simp, ?_⟩
    intro a ha b hb
    rw [List.mem_singleton.mp hb]
    intro hab
    exact hm (hab ▸ ha)

/-- An item that was put is found under its name, and nothing else changes. -/
theorem find?_put (name key : String) (item : α) (entries : List (String × α)) :
    find? key (put name item entries) = if key = name then some item else find? key entries := by
  induction entries with
  | nil =>
    by_cases h : key = name
    · simp [put, find?, h]
    · have h' : ¬ name = key := fun e => h e.symm
      simp [put, find?, h, h']
  | cons entry rest ih =>
    by_cases hn : entry.1 = name
    · by_cases hk : key = name
      · simp [put, find?, hn, hk]
      · have hk' : ¬ name = key := fun e => hk e.symm
        have he : ¬ entry.1 = key := fun e => hk (e.symm.trans hn)
        simp [put, find?, hn, hk, hk']
    · by_cases he : entry.1 = key
      · have hk : ¬ key = name := fun e => hn (he.trans e)
        simp [put, find?, he, hk]
      · simp [put, find?, hn, he, ih]

/-- Entries that are left out by their name are not found, the others are. -/
theorem find?_filter (keep : String → Bool) (key : String) (entries : List (String × α)) :
    find? key (entries.filter fun entry => keep entry.1) =
      if keep key then find? key entries else none := by
  induction entries with
  | nil => simp [find?]
  | cons entry rest ih =>
    by_cases he : entry.1 = key
    · by_cases hk : keep key
      · simp [find?, he, hk]
      · simp [he, hk, ih]
    · by_cases hk : keep entry.1
      · simp [find?, he, hk, ih]
      · simp [find?, he, hk, ih]

/-- Where no name occurs twice, every entry is found under its name. -/
theorem find?_eq_some_iff {entries : List (String × α)} (h : (entries.map Prod.fst).Nodup)
    {key : String} {item : α} : find? key entries = some item ↔ (key, item) ∈ entries := by
  induction entries with
  | nil => simp [find?]
  | cons entry rest ih =>
    obtain ⟨hnotin, hrest⟩ := List.nodup_cons.mp h
    by_cases he : entry.1 = key
    · have hother : (key, item) ∉ rest := fun hm =>
        hnotin (he ▸ List.mem_map_of_mem hm)
      obtain ⟨name, found⟩ := entry
      simp only at he
      simp [find?, he, hother, eq_comm]
    · obtain ⟨name, found⟩ := entry
      simp only at he
      have he' : ¬ key = name := fun e => he e.symm
      simp [find?, he, he', ih hrest]

end Entries

/-! ### Maps -/

/-- An ordered map from names to items: every name occurs once. -/
structure NameMap (α : Type u) where
  /-- Names and items, in the order of the map. -/
  entries : List (String × α)
  /-- No name occurs twice. -/
  nodup : (entries.map Prod.fst).Nodup

namespace NameMap

variable {α : Type u} {β : Type v}

/-- Maps with the same entries in the same order are the same map. -/
@[ext] theorem ext {m n : NameMap α} (h : m.entries = n.entries) : m = n := by
  cases m
  cases n
  simp only at h
  subst h
  rfl

/-- The map without entries. -/
def empty : NameMap α := ⟨[], List.nodup_nil⟩

instance : Inhabited (NameMap α) := ⟨empty⟩

/-- The names, in order. -/
def keys (m : NameMap α) : List String := m.entries.map Prod.fst

/-- The items, in order. -/
def items (m : NameMap α) : List α := m.entries.map Prod.snd

/-- The number of entries. -/
def size (m : NameMap α) : Nat := m.entries.length

/-- Whether the map has no entry. -/
def isEmpty (m : NameMap α) : Bool := m.entries.isEmpty

/-- The item under a name. -/
def get? (m : NameMap α) (name : String) : Option α := Entries.find? name m.entries

/-- Whether a name has an entry. -/
def contains (m : NameMap α) (name : String) : Bool := (m.get? name).isSome

/-- Puts an item under a name. A known name keeps its place and loses its old item. -/
def insert (m : NameMap α) (name : String) (item : α) : NameMap α :=
  ⟨Entries.put name item m.entries, Entries.nodup_put m.nodup⟩

/-- Inserts the entries of a list one after the other. -/
def insertAll (m : NameMap α) (entries : List (String × α)) : NameMap α :=
  entries.foldl (fun acc entry => acc.insert entry.1 entry.2) m

/-- The map of a list of entries: first places, last items. -/
def ofList (entries : List (String × α)) : NameMap α := empty.insertAll entries

/-- Takes the entry of a name out. -/
def erase (m : NameMap α) (name : String) : NameMap α :=
  ⟨m.entries.filter fun entry => entry.1 != name,
    m.nodup.sublist (List.filter_sublist.map Prod.fst)⟩

/-- Replaces every item by its image. -/
def map (f : α → β) (m : NameMap α) : NameMap β :=
  ⟨m.entries.map fun entry => (entry.1, f entry.2), by
    have h : (m.entries.map fun entry => (entry.1, f entry.2)).map Prod.fst =
        m.entries.map Prod.fst := by simp [List.map_map, Function.comp_def]
    rw [h]
    exact m.nodup⟩

/-- Whether two maps have the same names, in any order, and `same` items under each. -/
def sameBy (same : α → β → Bool) (m : NameMap α) (n : NameMap β) : Bool :=
  m.size == n.size && m.entries.all fun entry =>
    match n.get? entry.1 with
    | some item => same entry.2 item
    | none => false

@[simp] theorem entries_empty : (empty : NameMap α).entries = [] := rfl

@[simp] theorem entries_insert (m : NameMap α) (name : String) (item : α) :
    (m.insert name item).entries = Entries.put name item m.entries := rfl

@[simp] theorem entries_map (f : α → β) (m : NameMap α) :
    (m.map f).entries = m.entries.map fun entry => (entry.1, f entry.2) := rfl

/-- An insertion is seen under its own name and under no other. -/
theorem get?_insert (m : NameMap α) (name key : String) (item : α) :
    (m.insert name item).get? key = if key = name then some item else m.get? key :=
  Entries.find?_put name key item m.entries

/-- An erased name is gone, and the others stay. -/
theorem get?_erase (m : NameMap α) (name key : String) :
    (m.erase name).get? key = if key = name then none else m.get? key := by
  have h := Entries.find?_filter (· != name) key m.entries
  simp only [bne_iff_ne, ne_eq, ite_not] at h
  exact h

/-- An item is in the map when it is under some name. -/
theorem mem_items_iff (m : NameMap α) (item : α) :
    item ∈ m.items ↔ ∃ name, m.get? name = some item := by
  simp [items, get?, Entries.find?_eq_some_iff m.nodup]

/-- A name has an entry when it is one of the names. -/
theorem mem_keys_iff (m : NameMap α) (name : String) : name ∈ m.keys ↔ m.contains name = true := by
  simp [keys, contains, get?, Option.isSome_iff_exists, Entries.find?_eq_some_iff m.nodup]

/-- A known name keeps its place, a new one goes last. -/
theorem keys_insert (m : NameMap α) (name : String) (item : α) :
    (m.insert name item).keys = if name ∈ m.keys then m.keys else m.keys ++ [name] :=
  Entries.keys_put name item m.entries

/-- Changing the items leaves the names alone. -/
@[simp] theorem keys_map (f : α → β) (m : NameMap α) : (m.map f).keys = m.keys := by
  simp [keys, List.map_map, Function.comp_def]

end NameMap

end RecordQuery
