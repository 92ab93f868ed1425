import RecordQuery.Proofs.NameMap
import RecordQuery.Table

/-!
# Choosing Fields by Name

Names that a table declares choose its fields. A name that is given twice is chosen once, in the
place where it comes first. One name that is not declared is enough for nothing to be chosen, and
the first such name is told.

## Main results

* `Table.exists_projectFrom` — declared names are added to a projection;
* `Table.exists_project` — declared names make a projection;
* `Table.items_project_subset` — no fields are chosen but declared ones;
* `Table.project_all_or_nothing` — what names choose, and which of them is told.
-/

namespace RecordQuery

namespace Table

variable {table : Table} {names : List String}

/-- A declared name has a field. -/
theorem exists_field? {name : String} (h : name ∈ table.fields.keys) :
    ∃ field, table.field? name = some field := by
  rw [NameMap.mem_keys_iff, NameMap.contains, Option.isSome_iff_exists] at h
  exact h

/-- Declared names are added to a projection: new ones at the end, each with the field that the
table declares. -/
theorem exists_projectFrom (h : ∀ name ∈ names, name ∈ table.fields.keys) (chosen : Projection) :
    ∃ p, table.projectFrom chosen names = .ok p ∧
      p.fields.keys = (chosen.fields.keys ++ names).eraseDups ∧
      ∀ key, p.get? key = if key ∈ names then table.field? key else chosen.get? key := by
  induction names generalizing chosen with
  | nil =>
      refine ⟨chosen, rfl, ?_, fun key => (if_neg List.not_mem_nil).symm⟩
      rw [List.append_nil, NameMap.eraseDups_keys]
  | cons name rest ih =>
      obtain ⟨hname, hrest⟩ := List.forall_mem_cons.mp h
      obtain ⟨field, hfield⟩ := exists_field? hname
      obtain ⟨p, hp, hkeys, hget⟩ := ih hrest (chosen.insert name field)
      refine ⟨p, ?_, ?_, fun key => ?_⟩
      · rw [projectFrom, hfield]
        exact hp
      · rw [hkeys]
        exact chosen.fields.keys_insert_append name field rest
      · have hinsert : (chosen.insert name field).get? key =
            if key = name then some field else chosen.get? key :=
          chosen.fields.get?_insert name key field
        rw [hget, hinsert]
        by_cases hkey : key = name
        · subst hkey
          simp [hfield]
        · simp [hkey]

/-- **Declared names make a projection** of the names in the order in which they first come, each
with the field that the table declares. -/
theorem exists_project (h : ∀ name ∈ names, name ∈ table.fields.keys) :
    ∃ p, table.project names = .ok p ∧ p.fields.keys = names.eraseDups ∧
      ∀ name ∈ names, p.get? name = table.field? name := by
  obtain ⟨p, hp, hkeys, hget⟩ := exists_projectFrom h (.ofList [])
  refine ⟨p, hp, hkeys, fun name hname => ?_⟩
  rw [hget, if_pos hname]

/-- Names add no fields to a projection but declared ones. -/
theorem items_projectFrom_subset {chosen p : Projection}
    (h : table.projectFrom chosen names = .ok p) (hc : chosen.fields.items ⊆ table.fields.items) :
    p.fields.items ⊆ table.fields.items := by
  induction names generalizing chosen with
  | nil =>
      cases h
      exact hc
  | cons name rest ih =>
      rw [projectFrom] at h
      cases hfield : table.field? name with
      | none =>
          rw [hfield] at h
          cases h
      | some field =>
          rw [hfield] at h
          refine ih h (List.Subset.trans (chosen.fields.items_insert_subset name field) ?_)
          exact List.cons_subset.mpr ⟨NameMap.mem_items_of_get? hfield, hc⟩

/-- No fields are chosen but declared ones. -/
theorem items_project_subset {p : Projection} (h : table.project names = .ok p) :
    p.fields.items ⊆ table.fields.items :=
  items_projectFrom_subset h (List.nil_subset _)

/-! ### All or nothing -/

/-- A name has no field when it is not declared. -/
theorem field?_eq_none_iff {name : String} :
    table.field? name = none ↔ name ∉ table.fields.keys := by
  rw [NameMap.mem_keys_iff, NameMap.contains, Bool.not_eq_true, Option.isSome_eq_false_iff,
    Option.isNone_iff_eq_none]
  exact Iff.rfl

/-- Names are refused for the first of them that is not declared. -/
theorem projectFrom_eq_error_iff {chosen : Projection} {e : Error} :
    table.projectFrom chosen names = .error e ↔
      ∃ before name after, names = before ++ name :: after ∧
        (∀ earlier ∈ before, earlier ∈ table.fields.keys) ∧ name ∉ table.fields.keys ∧
        e = table.unknownField name := by
  induction names generalizing chosen with
  | nil => simp [projectFrom]
  | cons first rest ih =>
      rw [projectFrom]
      cases hfield : table.field? first with
      | none =>
          have hfirst : first ∉ table.fields.keys := field?_eq_none_iff.mp hfield
          constructor
          · intro h
            exact ⟨[], first, rest, rfl, nofun, hfirst, (Except.error.inj h).symm⟩
          · rintro ⟨_ | ⟨earlier, before⟩, name, after, heq, hbefore, -, rfl⟩
            · cases heq
              rfl
            · cases heq
              exact absurd (hbefore _ List.mem_cons_self) hfirst
      | some field =>
          have hfirst : first ∈ table.fields.keys := NameMap.mem_keys_of_get? hfield
          simp only [ih]
          constructor
          · rintro ⟨before, name, after, rfl, hbefore, hname, rfl⟩
            exact ⟨first :: before, name, after, rfl,
              List.forall_mem_cons.mpr ⟨hfirst, hbefore⟩, hname, rfl⟩
          · rintro ⟨_ | ⟨earlier, before⟩, name, after, heq, hbefore, hname, rfl⟩
            · cases heq
              exact absurd hfirst hname
            · cases heq
              exact ⟨before, name, after, rfl, (List.forall_mem_cons.mp hbefore).2, hname, rfl⟩

/-- Names that make a projection are declared. -/
theorem mem_keys_of_projectFrom {chosen p : Projection}
    (h : table.projectFrom chosen names = .ok p) : ∀ name ∈ names, name ∈ table.fields.keys := by
  induction names generalizing chosen with
  | nil => exact nofun
  | cons first rest ih =>
      rw [projectFrom] at h
      cases hfield : table.field? first with
      | none =>
          rw [hfield] at h
          cases h
      | some field =>
          rw [hfield] at h
          exact List.forall_mem_cons.mpr ⟨NameMap.mem_keys_of_get? hfield, ih h⟩

/-- What names make when all of them are declared: each name once, in the order of the first
places, with the field that the table declares. -/
theorem project_spec {p : Projection} (h : table.project names = .ok p) :
    p.fields.keys = names.eraseDups ∧
      ∀ name ∈ names, ∃ field, p.get? name = some field ∧ table.field? name = some field := by
  have hnames := mem_keys_of_projectFrom h
  obtain ⟨q, hq, hkeys, hget⟩ := exists_project hnames
  cases h.symm.trans hq
  refine ⟨hkeys, fun name hname => ?_⟩
  obtain ⟨field, hfield⟩ := exists_field? (hnames name hname)
  exact ⟨field, (hget name hname).trans hfield, hfield⟩

/-- A projection has as many fields as different names were given. -/
theorem size_project {p : Projection} (h : table.project names = .ok p) :
    p.size = names.toFinset.card :=
  NameMap.size_eq_card (project_spec h).1

/-- The names that a table declares, in its order, choose all its fields. -/
theorem project_keys (table : Table) :
    table.project table.fields.keys = .ok table.projection := by
  obtain ⟨p, hp, hkeys, hget⟩ := exists_project fun name (h : name ∈ table.fields.keys) => h
  rw [NameMap.eraseDups_keys] at hkeys
  have hfields : p.fields = table.fields :=
    NameMap.ext_get? hkeys fun name hname => hget name (hkeys ▸ hname)
  rw [hp, projection, ← hfields]

/-- An undeclared name makes a statement that cannot be sent. -/
theorem kind_unknownField (table : Table) (name : String) :
    (table.unknownField name).kind = .invalidStatement := rfl

/-- How the error about an undeclared name reads. -/
theorem display_unknownField (table : Table) (name : String) :
    (table.unknownField name).display =
      "invalid statement: " ++
        ("unknown field `" ++ name ++ "` in table `" ++ table.remoteName ++ "`") :=
  Error.display_ofReport _

/-- **Choosing by name is all or nothing.** Names make a projection exactly when the table declares
all of them. It then holds each name once, in the order of the first places, with the very field
that the table declares, so it has as many fields as there are different names, and the names of
the table itself make the projection of the table. Names that make none are refused as a statement
that cannot be sent, and it is the first undeclared one among them that is told. -/
theorem project_all_or_nothing (table : Table) (names : List String) :
    ((∃ p, table.project names = .ok p) ↔ ∀ name ∈ names, name ∈ table.fields.keys) ∧
      (∀ p, table.project names = .ok p →
        p.fields.keys = names.eraseDups ∧ p.size = names.toFinset.card ∧
          ∀ name ∈ names, ∃ field, p.get? name = some field ∧ table.field? name = some field) ∧
      table.project table.fields.keys = .ok table.projection ∧
      (∀ e, table.project names = .error e ↔
        ∃ before name after, names = before ++ name :: after ∧
          (∀ earlier ∈ before, earlier ∈ table.fields.keys) ∧ name ∉ table.fields.keys ∧
          e = table.unknownField name) ∧
      ∀ name, (table.unknownField name).kind = .invalidStatement ∧
        (table.unknownField name).display =
          "invalid statement: " ++
            ("unknown field `" ++ name ++ "` in table `" ++ table.remoteName ++ "`") := by
  refine ⟨⟨?_, ?_⟩, ?_, project_keys table, fun e => projectFrom_eq_error_iff,
    fun name => ⟨kind_unknownField table name, display_unknownField table name⟩⟩
  · rintro ⟨p, hp⟩
    exact mem_keys_of_projectFrom hp
  · intro h
    obtain ⟨p, hp, -⟩ := exists_project h
    exact ⟨p, hp⟩
  · intro p hp
    obtain ⟨hkeys, hget⟩ := project_spec hp
    exact ⟨hkeys, size_project hp, hget⟩

end Table

end RecordQuery
