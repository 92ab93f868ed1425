import RecordQuery.Proofs.Json.Equality
import RecordQuery.Proofs.Shape.RoundTrip

/-!
# Records Part by Part

A record is read from an object or from an array. Whatever the value is, a *part* of it stands
for each member: in an object what is under the key of the member, in an array what is at its
place. A record is read exactly when each member can be read from the part that stands for it,
or can do without one; of an object all else is left aside, and an array has nothing else.

This needs that no name comes twice in the object: the members are read one after the other, so
that a part that cannot be read is refused even where a later one would replace it.

## Main results

* `Members.close_fillAll_eq_ok_iff` — reading from the members of an object;
* `Members.decodeItems_eq_ok_iff` — reading from the items of an array;
* `Shape.decode_record_eq_ok_iff` — a record is read part by part.
-/

namespace RecordQuery

/-! ### Parts -/

namespace Json

/-- What stands in a value for a member of a record: in an object what is under its key, in an
array what is at its place. -/
def part? (value : Json) (key : String) (place : Nat) : Option Json :=
  match value with
  | .object entries => Entries.find? key entries
  | .array items => items[place]?
  | _ => none

/-- Whether a value has the form of a record: an object, or an array of no more items than the
record has members. -/
def IsRecord (count : Nat) : Json → Prop
  | .object _ => True
  | .array items => items.length ≤ count
  | _ => False

/-- Whether no name comes twice in a value that is an object. -/
def HasDistinctNames : Json → Prop
  | .object entries => (entries.map Prod.fst).Nodup
  | _ => True

/-- No name comes twice in a value that can be written as JSON. -/
theorem WellFormed.hasDistinctNames {value : Json} (h : value.WellFormed) :
    value.HasDistinctNames := by
  cases value with
  | object entries => exact h.1
  | _ => trivial

/-- The parts of a value that can be written as JSON can be so. -/
theorem WellFormed.of_part {value found : Json} {key : String} {place : Nat}
    (h : value.WellFormed) (hpart : value.part? key place = some found) : found.WellFormed := by
  cases value with
  | object entries =>
      exact h.2.of_mem ((Entries.find?_eq_some_iff h.1).mp hpart)
  | array items => exact WellFormedItems.of_mem h (List.mem_of_getElem? hpart)
  | _ => cases hpart

end Json

/-- What a member holds when nothing in a value stands for it, if anything. -/
def Presence.missing? {α : Type} (presence : Presence) (empty : α) (value : Json) :
    Option (presence.Slot α) :=
  match value with
  | .array _ => presence.atEnd? empty
  | _ => presence.absent? empty

/-- Whether a member holds what is read from the part of a value that stands for it, or what it
holds when there is none. -/
def Presence.Holds (presence : Presence) (shape : Shape) (value : Json) (part : Option Json)
    (slot : presence.Slot shape.Value) : Prop :=
  match part with
  | none => presence.missing? shape.empty value = some slot
  | some found => presence.read shape.decode found = .ok slot

/-- Whether reading an object leaves what is known of a member as it is, or replaces it by what
is read from the part that stands for it. -/
def Presence.Learns (presence : Presence) (shape : Shape) (part : Option Json)
    (before after : Option (presence.Slot shape.Value)) : Prop :=
  match part with
  | none => after = before
  | some found => ∃ slot, presence.read shape.decode found = .ok slot ∧ after = some slot

/-- Whether members hold what is read from the parts of a value, from a place on. -/
def Members.Hold (value : Json) : (members : Members) → Nat → members.Values → Prop
  | .nil, _, _ => True
  | .cons key presence shape rest, place, (slot, values) =>
    presence.Holds shape value (value.part? key place) slot ∧ rest.Hold value (place + 1) values

/-! ### Objects -/

/-- What is under a name that is no key is left aside. -/
theorem Members.fill_of_not_mem {name : String} {value : Json} :
    (members : Members) → name ∉ members.keys → (known : members.Partial) →
      members.fill name value known = .ok known
  | .nil, _, () => rfl
  | .cons key presence shape rest, h, (slot, others) => by
    rw [keys, List.mem_cons, not_or] at h
    rw [fill, if_neg h.1, rest.fill_of_not_mem h.2 others]
    rfl

section

variable {key : String} {presence : Presence} {shape : Shape} {rest : Members}
  {entries : List (String × Json)}

/-- Where no part stands for a member, nothing is learned. -/
theorem Presence.learns_none_iff {before after : Option (presence.Slot shape.Value)} :
    presence.Learns shape none before after ↔ after = before := Iff.rfl

/-- From a part that stands for a member its slot is learned. -/
theorem Presence.learns_some_iff {found : Json}
    {before after : Option (presence.Slot shape.Value)} :
    presence.Learns shape (some found) before after ↔
      ∃ slot, presence.read shape.decode found = .ok slot ∧ after = some slot := Iff.rfl

/-- Reading one more member of an object. -/
theorem Members.fillAll_cons (members : Members) (known : members.Partial) (name : String)
    (value : Json) : members.fillAll known ((name, value) :: entries) =
      members.fill name value known >>= fun known => members.fillAll known entries :=
  List.foldlM_cons

/-- What is known of members after an object is read: of the first, what is under its key, and
of the others, what would be known of them without it. -/
theorem Members.fillAll_cons_eq_ok_iff (hkey : key ∉ rest.keys)
    (hnames : (entries.map Prod.fst).Nodup) (slot slot' : Option (presence.Slot shape.Value))
    (others others' : rest.Partial) :
    (cons key presence shape rest).fillAll (slot, others) entries = .ok (slot', others') ↔
      presence.Learns shape (Entries.find? key entries) slot slot' ∧
        rest.fillAll others entries = .ok others' := by
  induction entries generalizing slot others with
  | nil =>
      rw [Entries.find?, Presence.learns_none_iff, eq_comm (a := slot')]
      constructor
      · intro h
        cases h
        exact ⟨rfl, rfl⟩
      · rintro ⟨rfl, h⟩
        cases h
        rfl
  | cons entry entries ih =>
      obtain ⟨name, value⟩ := entry
      obtain ⟨hnew, hnames⟩ := List.nodup_cons.mp hnames
      rw [fillAll_cons, fillAll_cons, fill]
      by_cases hname : name = key
      · -- No other entry has this name, and to the other members it is unknown.
        subst hname
        have hlater : ∀ entry ∈ entries, entry.1 ≠ name := fun entry hmem heq =>
          hnew (List.mem_map.mpr ⟨entry, hmem, heq⟩)
        rw [if_pos rfl, rest.fill_of_not_mem hkey others, Entries.find?, if_pos rfl,
          Presence.learns_some_iff, bind_assoc, bind_eq_ok_iff, ← exists_and_right]
        refine exists_congr fun x => ?_
        rw [and_assoc]
        refine and_congr_right fun _ => ?_
        change (cons name presence shape rest).fillAll (some x, others) entries = _ ↔
          _ ∧ rest.fillAll others entries = _
        rw [Members.fillAll_of_ne (some x) others hlater, map_eq_ok_iff]
        simp only [Prod.mk.injEq]
        constructor
        · rintro ⟨_, h, hx, rfl⟩
          exact ⟨hx.symm, h⟩
        · rintro ⟨hx, h⟩
          exact ⟨_, h, hx.symm, rfl⟩
      · rw [if_neg hname, Entries.find?, if_neg hname, bind_assoc, bind_eq_ok_iff,
          bind_eq_ok_iff, and_comm, ← exists_and_right]
        refine exists_congr fun known => ?_
        rw [and_assoc]
        exact and_congr_right fun _ => (ih hnames slot known).trans and_comm

/-- Members are closed one by one. -/
theorem Members.close_cons_eq_ok_iff (slot' : Option (presence.Slot shape.Value))
    (others : rest.Partial) (slot : presence.Slot shape.Value) (values : rest.Values) :
    (cons key presence shape rest).close (slot', others) = .ok (slot, values) ↔
      (slot'.orElse fun _ => presence.absent? shape.empty) = some slot ∧
        rest.close others = .ok values := by
  rw [close]
  cases slot'.orElse fun _ => presence.absent? shape.empty <;>
    exact pair_eq_ok_iff.trans (by simp)

end

/-- **Reading from an object**: what is known after all entries are read is closed to what the
members hold. -/
theorem Members.close_fillAll_eq_ok_iff {entries : List (String × Json)}
    (hnames : (entries.map Prod.fst).Nodup) :
    (members : Members) → members.keys.Nodup → (place : Nat) → (values : members.Values) →
      ((∃ known, members.fillAll members.blank entries = .ok known ∧
          members.close known = .ok values) ↔ members.Hold (.object entries) place values)
  | .nil, _, _, () => by
    have hfill : nil.fillAll () entries = .ok () := by
      clear hnames
      induction entries with
      | nil => rfl
      | cons entry entries ih => exact ih
    exact ⟨fun _ => trivial, fun _ => ⟨(), hfill, rfl⟩⟩
  | .cons key presence shape rest, hkeys, place, (slot, values) => by
    obtain ⟨hkey, hrest⟩ := List.nodup_cons.mp hkeys
    rw [Hold, ← close_fillAll_eq_ok_iff hnames rest hrest (place + 1) values, Json.part?, blank]
    constructor
    · rintro ⟨⟨first, others⟩, hfill, hclose⟩
      obtain ⟨hfirst, hothers⟩ := (fillAll_cons_eq_ok_iff hkey hnames _ _ _ _).mp hfill
      obtain ⟨hslot, hclosed⟩ := (close_cons_eq_ok_iff _ _ _ _).mp hclose
      refine ⟨?_, others, hothers, hclosed⟩
      cases hfound : Entries.find? key entries with
      | none =>
          rw [hfound, Presence.learns_none_iff] at hfirst
          rwa [hfirst] at hslot
      | some found =>
          rw [hfound] at hfirst
          obtain ⟨x, hread, rfl⟩ := Presence.learns_some_iff.mp hfirst
          exact hread.trans (congrArg Except.ok (Option.some.inj hslot))
    · rintro ⟨hslot, others, hothers, hclosed⟩
      cases hfound : Entries.find? key entries with
      | none =>
          rw [hfound] at hslot
          refine ⟨(none, others), (fillAll_cons_eq_ok_iff hkey hnames _ _ _ _).mpr ⟨?_, hothers⟩,
            (close_cons_eq_ok_iff _ _ _ _).mpr ⟨hslot, hclosed⟩⟩
          exact hfound ▸ Presence.learns_none_iff.mpr rfl
      | some found =>
          rw [hfound] at hslot
          refine ⟨(some slot, others),
            (fillAll_cons_eq_ok_iff hkey hnames _ _ _ _).mpr ⟨?_, hothers⟩,
            (close_cons_eq_ok_iff _ _ _ _).mpr ⟨rfl, hclosed⟩⟩
          exact hfound ▸ Presence.learns_some_iff.mpr ⟨slot, hslot, rfl⟩

/-! ### Arrays -/

/-- **Reading from an array**: its items are read one by one from a place on, and no item is
left over. -/
theorem Members.decodeItems_eq_ok_iff (record : String) (count length : Nat) (items : List Json) :
    (members : Members) → (place : Nat) → (values : members.Values) →
      (members.decodeItems record count length place (items.drop place) = .ok values ↔
        items.length ≤ place + members.count ∧ members.Hold (.array items) place values)
  | .nil, place, () => by
    rw [Members.count, Hold, and_true, Nat.add_zero, ← List.drop_eq_nil_iff]
    cases items.drop place with
    | nil => exact ⟨fun _ => rfl, fun _ => rfl⟩
    | cons item rest => exact ⟨nofun, nofun⟩
  | .cons key presence shape rest, place, (slot, values) => by
    have ih := decodeItems_eq_ok_iff record count length items rest (place + 1)
    have hcount : place + (cons key presence shape rest).count = place + 1 + rest.count := by
      rw [Members.count]
      omega
    rw [Hold, hcount, and_left_comm, ← ih, Json.part?, ← List.head?_drop, ← List.tail_drop]
    cases items.drop place with
    | nil =>
        have hmissing : presence.Holds shape (.array items) none slot ↔
            presence.atEnd? shape.empty = some slot := Iff.rfl
        rw [decodeItems, List.head?_nil, hmissing]
        cases presence.atEnd? shape.empty <;> exact pair_eq_ok_iff.trans (by simp)
    | cons item later =>
        rw [decodeItems, pair_eq_ok_iff]
        exact Iff.rfl

/-! ### Records -/

/-- **A record is read part by part.** -/
theorem Shape.decode_record_eq_ok_iff {name : String} {members : Members}
    (hkeys : members.keys.Nodup) {value : Json} (hnames : value.HasDistinctNames)
    (values : members.Values) :
    (Shape.record name members).decode value = .ok values ↔
      value.IsRecord members.count ∧ members.Hold value 0 values := by
  cases value with
  | object entries =>
      rw [← Members.close_fillAll_eq_ok_iff hnames members hkeys 0 values, Shape.decode]
      exact bind_eq_ok_iff.trans (and_iff_right trivial).symm
  | array items =>
      have h := members.decodeItems_eq_ok_iff name members.count items.length items 0 values
      rwa [List.drop_zero, Nat.zero_add] at h
  | _ => exact ⟨nofun, fun h => h.1.elim⟩

/-! ### Members of one kind -/

/-- A text is read from a text. -/
theorem Json.asText_eq_ok_iff {value : Json} {text : String} :
    value.asText = .ok text ↔ value = .string text := by
  cases value <;> simp [asText]

/-- A natural number is read from an integer in range. -/
theorem Json.asUnsigned_eq_ok_iff {bits : Nat} {value : Json} {n : Unsigned bits} :
    value.asUnsigned bits = .ok n ↔ value = .integer (Fin.val n) := by
  constructor
  · intro h
    cases value with
    | integer found =>
        rw [asUnsigned, Unsigned.ofInt?] at h
        split at h
        · next hfound =>
          split at hfound
          · next hrange =>
            obtain rfl := Except.ok.inj h
            obtain rfl := Option.some.inj hfound
            exact congrArg Json.integer (Int.toNat_of_nonneg hrange.1).symm
          · cases hfound
        · cases h
    | _ => cases h
  · rintro rfl
    rw [asUnsigned, Unsigned.ofInt?_val]

/-- Whether what may be missing or `null` is read as an option. -/
def Json.Optionally {α : Type} (reads : Json → α → Prop) (part : Option Json) :
    Option α → Prop
  | none => part = none ∨ part = some .null
  | some x => ∃ found, part = some found ∧ found ≠ .null ∧ reads found x

/-- What can be read in the same way can be so where it may be missing. -/
theorem Json.optionally_congr {α : Type} {reads reads' : Json → α → Prop} {part : Option Json}
    (h : ∀ found, part = some found → ∀ x, reads found x ↔ reads' found x) (slot : Option α) :
    Optionally reads part slot ↔ Optionally reads' part slot := by
  cases slot with
  | none => exact Iff.rfl
  | some x =>
      refine exists_congr fun found => and_congr_right fun hpart => and_congr_right fun _ => ?_
      exact h found hpart x

namespace Presence

variable {shape : Shape} {value : Json} {part : Option Json}

/-- A required member holds what is read from a part, which must be there. -/
theorem holds_required_iff {slot : shape.Value} :
    Presence.required.Holds shape value part slot ↔
      ∃ found, part = some found ∧ shape.decode found = .ok slot := by
  have hmissing : Presence.required.missing? shape.empty value = none := by cases value <;> rfl
  cases part with
  | none => simp [Holds, hmissing]
  | some found => exact ⟨fun h => ⟨found, rfl, h⟩, fun ⟨_, h, hread⟩ => Option.some.inj h ▸ hread⟩

/-- An optional member holds what is read from a part, unless this is missing or `null`. -/
theorem holds_optional_iff {slot : Option shape.Value} :
    Presence.optional.Holds shape value part slot ↔
      Json.Optionally (fun found x => shape.decode found = .ok x) part slot := by
  have hmissing : Presence.optional.missing? shape.empty value = some none := by
    cases value <;> rfl
  cases part with
  | none => cases slot <;> simp [Holds, hmissing, Json.Optionally]
  | some found =>
      change Presence.optional.read shape.decode found = .ok slot ↔ _
      by_cases hnull : found = .null
      · subst hnull
        cases slot <;> simp [Presence.read, Json.isNull, Json.Optionally]
      · have hread : Presence.optional.read shape.decode found = some <$> shape.decode found :=
          if_neg fun h => hnull (by cases found <;> first | rfl | cases h)
        rw [hread, map_eq_ok_iff]
        cases slot <;> simp [Json.Optionally, hnull]

/-- A required text is the text of a part. -/
theorem holds_text_iff {text : String} :
    Presence.required.Holds .text value part text ↔ part = some (.string text) := by
  rw [holds_required_iff]
  exact ⟨fun ⟨_, hpart, hread⟩ => Json.asText_eq_ok_iff.mp hread ▸ hpart,
    fun hpart => ⟨_, hpart, rfl⟩⟩

/-- A required natural number is the integer of a part. -/
theorem holds_unsigned_iff {bits : Nat} {n : Unsigned bits} :
    Presence.required.Holds (.unsigned bits) value part n ↔
      part = some (.integer (Fin.val n)) := by
  rw [holds_required_iff]
  exact ⟨fun ⟨_, hpart, hread⟩ => Json.asUnsigned_eq_ok_iff.mp hread ▸ hpart,
    fun hpart => ⟨_, hpart, Json.asUnsigned_eq_ok_iff.mpr rfl⟩⟩

/-- An optional natural number is the integer of a part, or missing or `null`. -/
theorem holds_optional_unsigned_iff {bits : Nat} {slot : Option (Unsigned bits)} :
    Presence.optional.Holds (.unsigned bits) value part slot ↔
      Json.Optionally (fun found n => found = .integer (Fin.val n)) part slot :=
  holds_optional_iff.trans
    (Json.optionally_congr (fun _ _ _ => Json.asUnsigned_eq_ok_iff) slot)

end Presence

namespace Shaped

variable {α : Type} [Shaped α]

/-- A structure is read as its shape is. -/
theorem decode_eq_ok_iff {value : Json} {x : α} :
    decode value = .ok x ↔ ∃ v, (shape α).decode value = .ok v ∧ ofValue v = x := map_eq_ok_iff

/-- A structure that may be missing is read as its shape is. -/
theorem optionally_iff {part : Option Json} {x : Option α} :
    (∃ slot : Option (shape α).Value,
      Json.Optionally (fun found v => (shape α).decode found = .ok v) part slot ∧
        slot.map ofValue = x) ↔
      Json.Optionally (fun found y => decode found = .ok y) part x := by
  cases x with
  | none =>
      simp only [Option.map_eq_none_iff, exists_eq_right]
      exact Iff.rfl
  | some y =>
      constructor
      · rintro ⟨slot, hslot, hy⟩
        obtain ⟨v, rfl, hv⟩ := Option.map_eq_some_iff.mp hy
        obtain ⟨found, hpart, hnull, hread⟩ := hslot
        exact ⟨found, hpart, hnull, decode_eq_ok_iff.mpr ⟨v, hread, hv⟩⟩
      · rintro ⟨found, hpart, hnull, hread⟩
        obtain ⟨v, hv, rfl⟩ := decode_eq_ok_iff.mp hread
        exact ⟨some v, ⟨found, hpart, hnull, hv⟩, rfl⟩

/-- An optional structure is held when it can be read from a part, or when there is none. -/
theorem exists_holds_iff {reads : Json → α → Prop} {value : Json} (hvalue : value.WellFormed)
    (h : ∀ found : Json, found.WellFormed → ∀ x, decode found = .ok x ↔ reads found x)
    (key : String) (place : Nat) {x : Option α} :
    (∃ slot, Presence.optional.Holds (shape α) value (value.part? key place) slot ∧
        slot.map ofValue = x) ↔
      Json.Optionally reads (value.part? key place) x := by
  rw [← Json.optionally_congr fun found hfound => h found (hvalue.of_part hfound),
    ← optionally_iff]
  exact exists_congr fun slot => and_congr_left fun _ => Presence.holds_optional_iff

end Shaped

end RecordQuery
