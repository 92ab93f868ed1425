import Mathlib.Data.List.Nodup
import Mathlib.Data.List.Perm.Subperm
import RecordQuery.Proofs.Json.Equality
import RecordQuery.Proofs.Row.Decode

/-!
# Equality of Maps, Projections and Rows

Two maps are equal when they have the same names with equal items, whatever order the names are
in. Every name occurs once in a map, so equality can be told name by name, and it is an
equivalence as soon as the equality of items is one. For projections it is: fields are compared
by their making.

Projections that read the same remote field under every name decode a record to the same row,
but for the order of its entries.

## Main results

* `NameMap.sameBy_iff` — equality of maps, name by name;
* `Projection.same_iff`, `Projection.same_equivalence` — equality of projections;
* `Projection.ReadsAs.alike` — projections that read alike decode alike.
-/

namespace RecordQuery

universe u v

/-! ### Maps -/

namespace NameMap

variable {α : Type u} {β : Type v}

/-- Maps in which the same is found under every name have the same entries, in some order. -/
theorem entries_perm {m n : NameMap α} (h : ∀ name, m.get? name = n.get? name) :
    m.entries.Perm n.entries := by
  have hm : m.entries.Nodup := List.Nodup.of_map Prod.fst m.nodup
  have hn : n.entries.Nodup := List.Nodup.of_map Prod.fst n.nodup
  refine (List.perm_ext_iff_of_nodup hm hn).mpr fun entry => ?_
  obtain ⟨name, item⟩ := entry
  rw [mem_entries_iff, mem_entries_iff, h]

/-- Names that are as many, and all known to the other map, are all the names of the other. -/
theorem keys_perm {m : NameMap α} {n : NameMap β} (hsize : m.size = n.size)
    (h : m.keys ⊆ n.keys) : m.keys.Perm n.keys := by
  have hsub : List.Subperm m.keys n.keys := m.nodup.subperm h
  refine hsub.perm_of_length_le ?_
  rw [length_keys, length_keys, hsize]

/-- Equal maps are as many names, and what the first has under one, the other has an equal of. -/
theorem sameBy_eq_true {same : α → β → Bool} {m : NameMap α} {n : NameMap β} :
    m.sameBy same n = true ↔ m.size = n.size ∧ ∀ name item, m.get? name = some item →
      ∃ other, n.get? name = some other ∧ same item other = true := by
  rw [sameBy, Bool.and_eq_true, beq_iff_eq, List.all_eq_true, Prod.forall]
  refine and_congr_right fun _ => forall_congr' fun name => forall_congr' fun item => ?_
  rw [mem_entries_iff]
  refine imp_congr_right fun _ => ?_
  cases n.get? name with
  | none => simp
  | some other => simp

/-- Maps in which something is found under the same names have the same names, in some order. -/
theorem keys_perm_of_rel {r : α → β → Prop} {m : NameMap α} {n : NameMap β}
    (h : ∀ name, Option.Rel r (m.get? name) (n.get? name)) : m.keys.Perm n.keys := by
  refine (List.perm_ext_iff_of_nodup m.nodup n.nodup).mpr fun name => ?_
  show name ∈ m.keys ↔ name ∈ n.keys
  rw [mem_keys_iff, mem_keys_iff, contains, contains]
  have hname := h name
  revert hname
  generalize m.get? name = found, n.get? name = other
  rintro (_ | _) <;> rfl

/-- **Equality of maps, name by name.** -/
theorem sameBy_iff {same : α → β → Bool} {m : NameMap α} {n : NameMap β} :
    m.sameBy same n = true ↔
      ∀ name, Option.Rel (fun a b => same a b = true) (m.get? name) (n.get? name) := by
  rw [sameBy_eq_true]
  constructor
  · rintro ⟨hsize, hfound⟩ name
    -- The other map has no more names than this one.
    have hkeys : m.keys.Perm n.keys := by
      refine keys_perm hsize fun key hkey => ?_
      obtain ⟨item, hitem⟩ := Option.isSome_iff_exists.mp ((mem_keys_iff m key).mp hkey)
      obtain ⟨other, hother, -⟩ := hfound key item hitem
      exact mem_keys_of_get? hother
    cases hitem : m.get? name with
    | some item =>
        obtain ⟨other, hother, hsame⟩ := hfound name item hitem
        rw [hother]
        exact .some hsame
    | none =>
        have hnone : name ∉ n.keys := by
          rw [← hkeys.mem_iff, mem_keys_iff, contains, hitem]
          exact Bool.false_ne_true
        cases hother : n.get? name with
        | none => exact .none
        | some other => exact absurd (mem_keys_of_get? hother) hnone
  · intro h
    refine ⟨?_, fun name item hitem => ?_⟩
    · rw [← length_keys, ← length_keys, (keys_perm_of_rel h).length_eq]
    · have hrel := h name
      rw [hitem] at hrel
      generalize n.get? name = found at hrel
      cases hrel with
      | some hsame => exact ⟨_, rfl, hsame⟩

end NameMap

/-! ### Projections -/

namespace Projection

variable {p q : Projection}

/-- **Equality of projections**: under every name both choose fields of one making, or neither
chooses any. -/
theorem same_iff :
    p.same q = true ↔ ∀ name, Option.Rel (fun f g => f.same g = true) (p.get? name) (q.get? name) :=
  NameMap.sameBy_iff

/-- Equality of projections looks at the makings of the fields alone. -/
theorem same_iff_stamps :
    p.same q = true ↔ ∀ name, (p.get? name).map Field.stamp = (q.get? name).map Field.stamp := by
  rw [same_iff]
  refine forall_congr' fun name => ?_
  cases p.get? name <;> cases q.get? name <;> simp [Field.same]

/-- **Equality of projections is an equivalence.** -/
theorem same_equivalence : Equivalence fun p q : Projection => p.same q = true where
  refl _ := same_iff_stamps.mpr fun _ => rfl
  symm h := same_iff_stamps.mpr fun name => (same_iff_stamps.mp h name).symm
  trans h h' := same_iff_stamps.mpr fun name =>
    (same_iff_stamps.mp h name).trans (same_iff_stamps.mp h' name)

/-- Whether two projections read the same remote field under every name. -/
def ReadsAs (p q : Projection) : Prop :=
  ∀ name, (p.fields.map Field.remoteName).get? name = (q.fields.map Field.remoteName).get? name

/-- Equal projections read alike, once fields of one making have one name. -/
theorem readsAs_of_same
    (hagree : ∀ f ∈ p.fields.items, ∀ g ∈ q.fields.items, f.stamp = g.stamp →
      f.remoteName = g.remoteName) (h : p.same q = true) : p.ReadsAs q := by
  intro name
  have hfields : Option.Rel _ (p.fields.get? name) (q.fields.get? name) := same_iff.mp h name
  rw [NameMap.get?_map, NameMap.get?_map]
  cases hf : p.fields.get? name with
  | none =>
      rw [hf] at hfields
      cases hg : q.fields.get? name with
      | none => rfl
      | some g =>
          rw [hg] at hfields
          cases hfields
  | some f =>
      rw [hf] at hfields
      cases hg : q.fields.get? name with
      | none =>
          rw [hg] at hfields
          cases hfields
      | some g =>
          rw [hg] at hfields
          cases hfields with
          | some hsame =>
              exact congrArg some (hagree f (NameMap.mem_items_of_get? hf) g
                (NameMap.mem_items_of_get? hg) (beq_iff_eq.mp hsame))

/-- Projections that read alike have the same remote names, in some order. -/
theorem ReadsAs.perm_remoteNames (h : p.ReadsAs q) : p.remoteNames.Perm q.remoteNames := by
  have hperm := (NameMap.entries_perm h).map Prod.snd
  simpa [remoteNames, NameMap.items, NameMap.entries_map, Function.comp_def] using hperm

/-- Of projections that read alike, both choose something or both do not. -/
theorem ReadsAs.isEmpty_eq (h : p.ReadsAs q) : p.isEmpty = q.isEmpty := by
  have hlength := h.perm_remoteNames.length_eq
  rw [remoteNames, remoteNames, NameMap.items, NameMap.items] at hlength
  simp only [List.length_map] at hlength
  rw [Bool.eq_iff_iff, isEmpty, isEmpty, NameMap.isEmpty, NameMap.isEmpty,
    List.isEmpty_iff_length_eq_zero, List.isEmpty_iff_length_eq_zero, hlength]

end Projection

/-! ### Rows -/

/-- Whether two rows have one id and, under every name, the same value or both nothing. -/
structure Row.Alike (a b : Row) : Prop where
  id : a.id = b.id
  get? : ∀ name, a.fields.get? name = b.fields.get? name

/-- Whether the values of a record can be written as JSON. -/
def Record.WellFormed (record : Record) : Prop :=
  ∀ value ∈ record.values.items, value.WellFormed

/-- **Projections that read alike decode alike.** -/
theorem Projection.ReadsAs.alike {p q : Projection} (h : p.ReadsAs q) (record : Record) :
    Row.Alike (Row.decode record p) (Row.decode record q) where
  id := rfl
  get? name := by
    have hread : ∀ p : Projection, (Row.decode record p).fields.get? name =
        ((p.fields.map Field.remoteName).get? name).map record.get? := by
      intro p
      rw [Row.decode, NameMap.get?_map, NameMap.get?_map, Option.map_map]
      rfl
    rw [hread, hread, h]

/-- Rows that are alike are equal if the values that stand in them are well-formed. -/
theorem Row.Alike.same {a b : Row} (h : a.Alike b)
    (hvalues : ∀ name value, a.fields.get? name = some (some value) → value.WellFormed) :
    a.same b = true := by
  rw [Row.same, h.id, beq_self_eq_true, Bool.true_and, NameMap.sameBy_iff]
  intro name
  rw [← h.get?]
  cases hfound : a.fields.get? name with
  | none => exact .none
  | some found =>
      cases found with
      | none => exact .some rfl
      | some value => exact .some (Json.same_self value (hvalues name value hfound))

/-- The values in the row of a well-formed record are well-formed. -/
theorem Record.WellFormed.of_decode {record : Record} (h : record.WellFormed) {p : Projection}
    {name : String} {value : Json}
    (hvalue : (Row.decode record p).fields.get? name = some (some value)) : value.WellFormed := by
  rw [Row.decode, NameMap.get?_map] at hvalue
  obtain ⟨field, -, hread⟩ := Option.map_eq_some_iff.mp hvalue
  exact h value (NameMap.mem_items_of_get? hread)

end RecordQuery
