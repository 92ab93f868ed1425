import RecordQuery.Attachment
import RecordQuery.Proofs.Except
import RecordQuery.Proofs.NameMap
import RecordQuery.Record
import RecordQuery.Request

/-!
# Reading Undoes Writing

What a shape describes is written as a JSON value and read back from it. Writing leaves out
optional members that are absent, so a written object has some of the keys of its record, each
at most once and in the order of the record; reading it fills the members under these keys, and
closing supplies what was left out.

This needs that no two members of a record have one key: the first member of a key would be
read from the value of the second.

## Main results

* `Members.fillAll_encode` — what is known of a record after its written members are read;
* `Shape.decode_encode` — what is written is read back;
* `Shaped.structures_roundTrip` — records, requests and attachments are read back.
-/

namespace RecordQuery

/-! ### Keys -/

mutual

/-- Whether no record within a shape has two members of one key. -/
def Shape.hasDistinctKeys : Shape → Bool
  | .list item => item.hasDistinctKeys
  | .record _ members => members.hasDistinctKeys
  | _ => true

/-- Whether no two members have one key, nor two members of a record within them. -/
def Members.hasDistinctKeys : Members → Bool
  | .nil => true
  | .cons key _ shape rest =>
    !rest.keys.contains key && (shape.hasDistinctKeys && rest.hasDistinctKeys)

end

/-- The first key is none of the others. -/
theorem Members.hasDistinctKeys_cons {key : String} {presence : Presence} {shape : Shape}
    {rest : Members} :
    (cons key presence shape rest).hasDistinctKeys = true ↔
      key ∉ rest.keys ∧ shape.hasDistinctKeys = true ∧ rest.hasDistinctKeys = true := by
  simp [Members.hasDistinctKeys]

/-- Nothing is written as `null`. -/
theorem Shape.isNull_encode (shape : Shape) (value : shape.Value) :
    (shape.encode value).isNull = false := by
  cases shape <;> rfl

/-- A member is written under its key, or not at all. -/
theorem Presence.eq_key_of_mem_write {α : Type} {presence : Presence} {key : String}
    {encode : α → Json} {slot : presence.Slot α} {entry : String × Json}
    (h : entry ∈ presence.write key encode slot) : entry.1 = key := by
  cases presence with
  | required | defaulted => exact congrArg Prod.fst (List.mem_singleton.mp h)
  | optional =>
      cases slot with
      | some value => exact congrArg Prod.fst (List.mem_singleton.mp h)
      | none => cases h
  | nullable =>
      cases slot <;> exact congrArg Prod.fst (List.mem_singleton.mp h)

/-- Members are written under their keys. -/
theorem Members.mem_keys_of_mem_encode {entry : String × Json} :
    (members : Members) → (values : members.Values) → entry ∈ members.encode values →
      entry.1 ∈ members.keys
  | .cons _ _ _ rest, (_, values), h => by
    rcases List.mem_append.mp h with hfirst | hrest
    · exact List.mem_cons.mpr (.inl (Presence.eq_key_of_mem_write hfirst))
    · exact List.mem_cons.mpr (.inr (rest.mem_keys_of_mem_encode values hrest))

/-! ### What is known after reading -/

/-- What is known of a member after it was written and read: all but what is left out. -/
def Presence.known {α : Type} : (presence : Presence) → presence.Slot α →
    Option (presence.Slot α)
  | .required, slot => some slot
  | .optional, slot => slot.map some
  | .nullable, slot => some slot
  | .defaulted, slot => some slot

/-- What is known of members after they were written and read. -/
def Members.known : (members : Members) → members.Values → members.Partial
  | .nil, _ => ()
  | .cons _ presence _ rest, (slot, values) => (presence.known slot, rest.known values)

/-- Closing supplies what was left out. -/
theorem Members.close_known : (members : Members) → (values : members.Values) →
    members.close (members.known values) = .ok values
  | .nil, () => rfl
  | .cons key presence shape rest, (slot, values) => by
    rw [known, close, rest.close_known values]
    cases presence with
    | optional => cases slot <;> rfl
    | _ => rfl

section

variable {key : String} {presence : Presence} {shape : Shape} {rest : Members}

/-- Reads the members of an object one after the other. -/
def Members.fillAll (members : Members) (known : members.Partial)
    (entries : List (String × Json)) : Except DecodeError members.Partial :=
  entries.foldlM (fun known entry => members.fill entry.1 entry.2 known) known

/-- A written member is read. -/
theorem Members.fillAll_write (key : String)
    (hshape : ∀ value, shape.decode (shape.encode value) = .ok value)
    (slot : presence.Slot shape.Value) (others : rest.Partial) :
    (cons key presence shape rest).fillAll (none, others) (presence.write key shape.encode slot) =
      .ok (presence.known slot, others) := by
  have hread : ∀ json value, presence.read shape.decode json = .ok value →
      (cons key presence shape rest).fillAll (none, others) [(key, json)] =
        .ok (some value, others) := by
    intro json value hjson
    simp [fillAll, fill, hjson, bind, Except.bind, pure, Except.pure]
  have hsome : ∀ value, (if (shape.encode value).isNull then Except.ok none
      else some <$> shape.decode (shape.encode value)) = Except.ok (some value) := by
    intro value
    rw [shape.isNull_encode, hshape]
    rfl
  cases presence with
  | required | defaulted => exact hread _ _ (hshape slot)
  | optional =>
      cases slot with
      | none => rfl
      | some value => exact hread _ _ (hsome value)
  | nullable =>
      cases slot with
      | none => exact hread _ _ rfl
      | some value => exact hread _ _ (hsome value)

/-- Members under other keys leave a member alone. -/
theorem Members.fillAll_of_ne (slot : Option (presence.Slot shape.Value)) (others : rest.Partial)
    {entries : List (String × Json)} (h : ∀ entry ∈ entries, entry.1 ≠ key) :
    (cons key presence shape rest).fillAll (slot, others) entries =
      (slot, ·) <$> rest.fillAll others entries := by
  induction entries generalizing others with
  | nil => rfl
  | cons entry entries ih =>
      have hne : entry.1 ≠ key := h entry List.mem_cons_self
      rw [fillAll, List.foldlM_cons, fillAll, List.foldlM_cons, fill, if_neg hne]
      cases rest.fill entry.1 entry.2 others with
      | error reason => rfl
      | ok others' => exact ih others' fun other hmem => h other (List.mem_cons_of_mem _ hmem)

end

/-! ### Reading what is written -/

/-- A natural number below `2 ^ bits` is in range. -/
theorem Unsigned.ofInt?_val {bits : Nat} (value : Unsigned bits) :
    Unsigned.ofInt? bits (Fin.val value) = some value := by
  have h : 0 ≤ (Fin.val value : Int) ∧ (Fin.val value : Int).toNat < 2 ^ bits :=
    ⟨Int.natCast_nonneg _, value.isLt⟩
  rw [ofInt?, dif_pos h]
  rfl

mutual

/-- **Reading undoes writing.** -/
theorem Shape.decode_encode : (shape : Shape) → shape.hasDistinctKeys = true →
    (value : shape.Value) → shape.decode (shape.encode value) = .ok value
  | .text, _, _ => rfl
  | .unsigned bits, _, value => by
    rw [Shape.decode, Shape.encode, Json.asUnsigned, Unsigned.ofInt?_val]
  | .number, _, _ => rfl
  | .direction, _, value => by
    rw [Shape.decode, Shape.encode, Json.asDirection, Json.directionOf, Direction.ofName?_name]
  | .object, _, value => congrArg Except.ok (NameMap.ofList_entries value)
  | .list item, h, values => by
    rw [Shape.encode, Shape.decode]
    have hitem : ∀ value, item.decode (item.encode value) = .ok value := item.decode_encode h
    exact mapM_eq_ok_iff.mpr <|
      List.forall₂_map_left_iff.mpr (List.forall₂_same.mpr fun value _ => hitem value)
  | .record name members, h, values => by
    have hfill := members.fillAll_encode h values
    rw [Members.fillAll] at hfill
    rw [Shape.encode, Shape.decode]
    simp only [hfill]
    exact members.close_known values

/-- **What is known after reading** the written members of a record. -/
theorem Members.fillAll_encode : (members : Members) → members.hasDistinctKeys = true →
    (values : members.Values) →
      members.fillAll members.blank (members.encode values) = .ok (members.known values)
  | .nil, _, () => rfl
  | .cons key presence shape rest, h, (slot, values) => by
    obtain ⟨hkey, hshape, hrest⟩ := Members.hasDistinctKeys_cons.mp h
    have hne : ∀ entry ∈ rest.encode values, entry.1 ≠ key := fun entry hmem heq =>
      hkey (heq ▸ rest.mem_keys_of_mem_encode values hmem)
    have hfirst := Members.fillAll_write key (shape.decode_encode hshape) slot rest.blank
    have hothers := Members.fillAll_of_ne (presence.known slot) rest.blank hne
    rw [rest.fillAll_encode hrest values] at hothers
    rw [Members.fillAll] at hfirst hothers
    rw [Members.fillAll, Members.encode, List.foldlM_append, Members.blank, hfirst]
    exact hothers

end

/-! ### Structures -/

namespace Shaped

variable {α : Type} [Shaped α]

/-- A structure is read back from what it is written as. -/
theorem decode_encode (h : (shape α).hasDistinctKeys = true) (x : α) :
    decode (encode x) = .ok x := by
  rw [decode, encode, Shape.decode_encode _ h]
  exact congrArg Except.ok (ofValue_toValue x)

/-- Whether every value of a structure is read back from what it is written as, and so is
whatever was read from a JSON value in the first place, however that value came about. -/
def RoundTrips (α : Type) [Shaped α] : Prop :=
  (∀ x : α, decode (encode x) = .ok x) ∧
    ∀ (value : Json) (x : α), decode value = .ok x → decode (encode x) = .ok x

/-- Distinct keys are enough to be read back. -/
theorem roundTrips_of_distinct (h : (shape α).hasDistinctKeys = true) : RoundTrips α :=
  ⟨decode_encode h, fun _ x _ => decode_encode h x⟩

/-- **Records, requests and attachments are read back** from what they are written as: no
text, no number, no member of a value and no absent part is lost or made up. -/
theorem structures_roundTrip :
    RoundTrips Record ∧ RoundTrips ListOptions ∧ RoundTrips SortSpec ∧ RoundTrips Attachment ∧
      RoundTrips Thumbnails ∧ RoundTrips Thumbnail :=
  ⟨roundTrips_of_distinct (by decide), roundTrips_of_distinct (by decide),
    roundTrips_of_distinct (by decide), roundTrips_of_distinct (by decide),
    roundTrips_of_distinct (by decide), roundTrips_of_distinct (by decide)⟩

end Shaped

end RecordQuery
