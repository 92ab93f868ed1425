import RecordQuery.Proofs.Shape.Refusal

/-!
# Content and Layout

What is read from an object depends on what is under the keys of its record, and not on the order
of its members or on members that the record does not know. The same holds of every object within
it that is itself read as a record, be it under a key, at a place of an array or in a list. What is
said of a value that cannot be read does depend on the order, since the first misfit is told.

`Shape.Rearranges` is the least relation that puts the members of such objects in another order,
and adds members that are not known or takes them away.

## Main results

* `Members.hold_object_congr`, `Members.hold_array_congr` — members hold the same if their parts do;
* `Shape.Rearranges.decode_iff` — rearranged values are read alike;
* `Shaped.structures_readByContent` — records, requests and attachments are read by content, and
  refused for their first misfit.
-/

namespace RecordQuery

/-! ### Finding in objects -/

/-- What is under a name does not depend on the order of the entries. -/
theorem Entries.find?_congr {α : Type} {entries others : List (String × α)} {name : String}
    (hentries : (entries.map Prod.fst).Nodup) (hothers : (others.map Prod.fst).Nodup)
    (h : ∀ item, (name, item) ∈ entries ↔ (name, item) ∈ others) :
    find? name entries = find? name others := by
  ext item
  rw [find?_eq_some_iff hentries, find?_eq_some_iff hothers, h]

/-! ### Members that hold the same -/

namespace Presence

variable {presence : Presence} {shape : Shape} {v w : Json}

/-- Values that are read alike are so where they stand for a member. -/
theorem read_congr (hnull : v.isNull = w.isNull)
    (h : ∀ x, shape.decode v = .ok x ↔ shape.decode w = .ok x) (slot : presence.Slot shape.Value) :
    presence.read shape.decode v = .ok slot ↔ presence.read shape.decode w = .ok slot := by
  cases presence with
  | required | defaulted => exact h slot
  | optional | nullable =>
      rw [read, read, hnull]
      cases w.isNull <;> simp [map_eq_ok_iff, h]

end Presence

namespace Members

/-- The member at a place, if there is one. -/
def at? : Members → Nat → Option (Presence × Shape)
  | .nil, _ => none
  | .cons _ presence shape _, 0 => some (presence, shape)
  | .cons _ _ _ rest, place + 1 => rest.at? place

/-- A member that is found has a key. -/
theorem mem_keys_of_find? {name : String} {found : Presence × Shape} : (members : Members) →
    members.find? name = some found → name ∈ members.keys
  | .nil, h => by cases h
  | .cons key presence shape rest, h => by
    rw [find?] at h
    split at h
    · next hname => exact hname ▸ List.mem_cons_self
    · exact List.mem_cons_of_mem _ (rest.mem_keys_of_find? h)

/-- The members of a member's shape have distinct keys, if those of the whole shape have. -/
theorem hasDistinctKeys_of_at? {presence : Presence} {shape : Shape} : (members : Members) →
    members.hasDistinctKeys = true → (place : Nat) →
      members.at? place = some (presence, shape) → shape.hasDistinctKeys = true
  | .cons key presence' shape' rest, hdistinct, place, h => by
    obtain ⟨-, hshape, hrest⟩ := hasDistinctKeys_cons.mp hdistinct
    cases place with
    | zero =>
        cases h
        exact hshape
    | succ place => exact hasDistinctKeys_of_at? rest hrest place h

/-- **Members hold the same in two objects** if each of them does. -/
theorem hold_object_congr {entries others : List (String × Json)} : (members : Members) →
    members.keys.Nodup →
    (∀ key presence shape, members.find? key = some (presence, shape) → ∀ slot,
      presence.Holds shape (.object entries) (Entries.find? key entries) slot ↔
        presence.Holds shape (.object others) (Entries.find? key others) slot) →
    (place : Nat) → (values : members.Values) →
      (members.Hold (.object entries) place values ↔ members.Hold (.object others) place values)
  | .nil, _, _, _, () => Iff.rfl
  | .cons key presence shape rest, hkeys, h, place, (slot, values) => by
    obtain ⟨hkey, hrest⟩ := List.nodup_cons.mp hkeys
    refine and_congr (h key presence shape (if_pos rfl) slot) ?_
    refine hold_object_congr rest hrest (fun name presence' shape' hfind => ?_) (place + 1) values
    refine h name presence' shape' ?_
    have hne : name ≠ key := fun heq => hkey (heq ▸ rest.mem_keys_of_find? hfind)
    rwa [find?, if_neg hne]

/-- **Members hold the same in two arrays** if each of them does. -/
theorem hold_array_congr {items others : List Json} : (members : Members) → (place : Nat) →
    (∀ i presence shape, members.at? i = some (presence, shape) → ∀ slot,
      presence.Holds shape (.array items) items[place + i]? slot ↔
        presence.Holds shape (.array others) others[place + i]? slot) →
    (values : members.Values) →
      (members.Hold (.array items) place values ↔ members.Hold (.array others) place values)
  | .nil, _, _, () => Iff.rfl
  | .cons key presence shape rest, place, h, (slot, values) => by
    refine and_congr (h 0 presence shape rfl slot) ?_
    refine hold_array_congr rest (place + 1) (fun i presence' shape' hat => ?_) values
    have hplace : place + 1 + i = place + (i + 1) := by omega
    rw [hplace]
    exact h (i + 1) presence' shape' hat

end Members

/-! ### Rearranged values -/

/-- Whether one value comes of another by putting the members of objects in another order, adding
members that are not known and taking them away, in all objects that are read as records. No name
comes twice in these objects. -/
inductive Shape.Rearranges : Shape → Json → Json → Prop
  /-- Nothing is done. -/
  | refl (shape : Shape) (value : Json) : shape.Rearranges value value
  /-- What was done is undone. -/
  | symm {shape : Shape} {v w : Json} (h : shape.Rearranges v w) : shape.Rearranges w v
  /-- One is done after the other. -/
  | trans {shape : Shape} {u v w : Json} (h : shape.Rearranges u v) (h' : shape.Rearranges v w) :
      shape.Rearranges u w
  /-- The members of an object are put in another order. -/
  | reorder {record : String} {members : Members} {entries others : List (String × Json)}
      (hnames : (entries.map Prod.fst).Nodup) (h : entries.Perm others) :
      (Shape.record record members).Rearranges (.object entries) (.object others)
  /-- A member that is not known is added anywhere. -/
  | add {record key : String} {members : Members} {before after : List (String × Json)}
      {value : Json} (hnames : ((before ++ (key, value) :: after).map Prod.fst).Nodup)
      (hkey : key ∉ members.keys) :
      (Shape.record record members).Rearranges (.object (before ++ after))
        (.object (before ++ (key, value) :: after))
  /-- The value under a key is rearranged. -/
  | member {record key : String} {members : Members} {presence : Presence} {shape : Shape}
      {before after : List (String × Json)} {v w : Json}
      (hnames : ((before ++ (key, v) :: after).map Prod.fst).Nodup)
      (hfind : members.find? key = some (presence, shape)) (h : shape.Rearranges v w) :
      (Shape.record record members).Rearranges (.object (before ++ (key, v) :: after))
        (.object (before ++ (key, w) :: after))
  /-- The item that stands for a member is rearranged. -/
  | place {record : String} {members : Members} {presence : Presence} {shape : Shape}
      {before after : List Json} {v w : Json}
      (hat : members.at? before.length = some (presence, shape)) (h : shape.Rearranges v w) :
      (Shape.record record members).Rearranges (.array (before ++ v :: after))
        (.array (before ++ w :: after))
  /-- An item of a list is rearranged. -/
  | item {item : Shape} {before after : List Json} {v w : Json} (h : item.Rearranges v w) :
      (Shape.list item).Rearranges (.array (before ++ v :: after)) (.array (before ++ w :: after))

namespace Shape

variable {record key : String} {members : Members} {presence : Presence} {shape : Shape}
  {v w : Json}

/-- What is rearranged is not `null`, or nothing is done. -/
theorem Rearranges.isNull_eq (h : shape.Rearranges v w) : v.isNull = w.isNull := by
  induction h with
  | symm _ ih => exact ih.symm
  | trans _ _ ih ih' => exact ih.trans ih'
  | _ => rfl

/-- Objects with the same values under the keys of a record are read alike. -/
theorem decode_object_congr (hkeys : members.keys.Nodup) {entries others : List (String × Json)}
    (hentries : (entries.map Prod.fst).Nodup) (hothers : (others.map Prod.fst).Nodup)
    (h : ∀ key presence shape, members.find? key = some (presence, shape) → ∀ slot,
      presence.Holds shape (.object entries) (Entries.find? key entries) slot ↔
        presence.Holds shape (.object others) (Entries.find? key others) slot)
    (values : members.Values) :
    (Shape.record record members).decode (.object entries) = .ok values ↔
      (Shape.record record members).decode (.object others) = .ok values := by
  have hentries' : (Json.object entries).HasDistinctNames := hentries
  have hothers' : (Json.object others).HasDistinctNames := hothers
  rw [decode_record_eq_ok_iff hkeys hentries', decode_record_eq_ok_iff hkeys hothers']
  exact and_congr_right fun _ => members.hold_object_congr hkeys h 0 values

/-- The order of the members of an object does not matter. -/
theorem decode_perm (hkeys : members.keys.Nodup) {entries others : List (String × Json)}
    (hnames : (entries.map Prod.fst).Nodup) (h : entries.Perm others) (values : members.Values) :
    (Shape.record record members).decode (.object entries) = .ok values ↔
      (Shape.record record members).decode (.object others) = .ok values := by
  have hothers : (others.map Prod.fst).Nodup := (h.map Prod.fst).nodup_iff.mp hnames
  refine decode_object_congr hkeys hnames hothers (fun key presence shape _ slot => ?_) values
  rw [Entries.find?_congr hnames hothers fun item => h.mem_iff]
  exact Iff.rfl

/-- A member that is not known does not matter. -/
theorem decode_unknown (hkeys : members.keys.Nodup) {before after : List (String × Json)}
    {value : Json} (hnames : ((before ++ (key, value) :: after).map Prod.fst).Nodup)
    (hkey : key ∉ members.keys) (values : members.Values) :
    (Shape.record record members).decode (.object (before ++ after)) = .ok values ↔
      (Shape.record record members).decode (.object (before ++ (key, value) :: after)) =
        .ok values := by
  have hfewer : ((before ++ after).map Prod.fst).Nodup :=
    hnames.sublist (((List.sublist_cons_self _ after).append_left before).map Prod.fst)
  refine decode_object_congr hkeys hfewer hnames (fun name presence shape hfind slot => ?_) values
  have hne : name ≠ key := fun heq => hkey (heq ▸ members.mem_keys_of_find? hfind)
  rw [Entries.find?_congr hfewer hnames fun item => by simp [hne]]
  exact Iff.rfl

/-- Values under a key that are read alike leave the record as it is. -/
theorem decode_member (hkeys : members.keys.Nodup) {before after : List (String × Json)}
    (hnames : ((before ++ (key, v) :: after).map Prod.fst).Nodup)
    (hfind : members.find? key = some (presence, shape)) (hnull : v.isNull = w.isNull)
    (h : ∀ x, shape.decode v = .ok x ↔ shape.decode w = .ok x) (values : members.Values) :
    (Shape.record record members).decode (.object (before ++ (key, v) :: after)) = .ok values ↔
      (Shape.record record members).decode (.object (before ++ (key, w) :: after)) =
        .ok values := by
  have hothers : ((before ++ (key, w) :: after).map Prod.fst).Nodup := by
    rw [List.map_append, List.map_cons] at hnames ⊢
    exact hnames
  refine decode_object_congr hkeys hnames hothers (fun name presence' shape' hname slot => ?_)
    values
  by_cases hkey : name = key
  · subst hkey
    obtain ⟨rfl, rfl⟩ := Prod.mk.inj (Option.some.inj (hname.symm.trans hfind))
    rw [(Entries.find?_eq_some_iff hnames).mpr (List.mem_append_right _ List.mem_cons_self),
      (Entries.find?_eq_some_iff hothers).mpr (List.mem_append_right _ List.mem_cons_self)]
    exact Presence.read_congr hnull h slot
  · rw [Entries.find?_congr hnames hothers fun item => by simp [hkey]]
    exact Iff.rfl

/-- Items at a place that are read alike leave the record as it is. -/
theorem decode_place (hkeys : members.keys.Nodup) {before after : List Json}
    (hat : members.at? before.length = some (presence, shape)) (hnull : v.isNull = w.isNull)
    (h : ∀ x, shape.decode v = .ok x ↔ shape.decode w = .ok x) (values : members.Values) :
    (Shape.record record members).decode (.array (before ++ v :: after)) = .ok values ↔
      (Shape.record record members).decode (.array (before ++ w :: after)) = .ok values := by
  have hnames (items : List Json) : (Json.array items).HasDistinctNames := trivial
  rw [decode_record_eq_ok_iff hkeys (hnames _), decode_record_eq_ok_iff hkeys (hnames _)]
  refine and_congr (by simp [Json.IsRecord]) ?_
  refine members.hold_array_congr 0 (fun i presence' shape' hat' slot => ?_) values
  rw [Nat.zero_add]
  by_cases hi : i = before.length
  · subst hi
    obtain ⟨rfl, rfl⟩ := Prod.mk.inj (Option.some.inj (hat'.symm.trans hat))
    rw [List.getElem?_append_right le_rfl, List.getElem?_append_right le_rfl, Nat.sub_self]
    exact Presence.read_congr hnull h slot
  · have hsame : (before ++ v :: after)[i]? = (before ++ w :: after)[i]? := by
      rw [List.getElem?_append, List.getElem?_append]
      split
      · rfl
      · obtain ⟨k, hk⟩ : ∃ k, i - before.length = k + 1 := ⟨i - before.length - 1, by omega⟩
        rw [hk, List.getElem?_cons_succ, List.getElem?_cons_succ]
    rw [hsame]
    exact Iff.rfl

/-- Items that are read alike leave the list as it is. -/
theorem decode_item {before after : List Json}
    (h : ∀ x, shape.decode v = .ok x ↔ shape.decode w = .ok x) (values : List shape.Value) :
    (Shape.list shape).decode (.array (before ++ v :: after)) = .ok values ↔
      (Shape.list shape).decode (.array (before ++ w :: after)) = .ok values := by
  have hdecode (items : List Json) :
      (Shape.list shape).decode (.array items) = items.mapM shape.decode := rfl
  rw [hdecode, hdecode, mapM_eq_ok_iff, mapM_eq_ok_iff]
  induction before generalizing values with
  | nil => simp only [List.nil_append, List.forall₂_cons_left_iff, h]
  | cons first before ih => simp only [List.cons_append, List.forall₂_cons_left_iff, ih]

/-- **Rearranged values are read alike.** -/
theorem Rearranges.decode_iff (h : shape.Rearranges v w) (hdistinct : shape.hasDistinctKeys = true)
    (x : shape.Value) : shape.decode v = .ok x ↔ shape.decode w = .ok x := by
  induction h with
  | refl => exact Iff.rfl
  | symm _ ih => exact (ih hdistinct x).symm
  | trans _ _ ih ih' => exact (ih hdistinct x).trans (ih' hdistinct x)
  | reorder hnames h => exact decode_perm (Members.nodup_keys _ hdistinct) hnames h x
  | add hnames hkey => exact decode_unknown (Members.nodup_keys _ hdistinct) hnames hkey x
  | member hnames hfind h ih =>
      exact decode_member (Members.nodup_keys _ hdistinct) hnames hfind h.isNull_eq
        (ih (Members.hasDistinctKeys_of_find? _ hdistinct hfind)) x
  | place hat h ih =>
      exact decode_place (Members.nodup_keys _ hdistinct) hat h.isNull_eq
        (ih (Members.hasDistinctKeys_of_at? _ hdistinct _ hat)) x
  | item _ ih => exact decode_item (ih hdistinct) x

end Shape

/-! ### Structures -/

namespace Shaped

variable {α : Type} [Shaped α]

/-- Whether what is read as a structure depends on the content of a value and not on its layout,
and whether a value that cannot be read is refused for its first misfit. -/
structure ReadsByContent (α : Type) [Shaped α] : Prop where
  /-- A rearranged value is read if and only if the value is, and as the same structure. -/
  content : ∀ v w, (shape α).Rearranges v w → ∀ x : α, decode v = .ok x ↔ decode w = .ok x
  /-- Reading fails for the reason for which a value is refused, and for no other. -/
  refused : ∀ value e, (decode value : Except DecodeError α) = .error e ↔
    (shape α).Refuses value e

/-- Distinct keys are enough to be read by content. -/
theorem readsByContent_of_distinct (h : (shape α).hasDistinctKeys = true) : ReadsByContent α where
  content v w hvw x := by
    rw [decode_eq_ok_iff, decode_eq_ok_iff]
    exact exists_congr fun value => and_congr_left fun _ => hvw.decode_iff h value
  refused value e := map_eq_error_iff.trans ((shape α).decode_eq_error_iff h value e)

/-- **Records, requests and attachments are read by content.** Neither the order of the members of
an object nor members that are not known change what is read, in the object itself or in one
within it; and what cannot be read is refused for the first misfit in its own order, or else for
the first member that is lacking. -/
theorem structures_readByContent :
    ReadsByContent Record ∧ ReadsByContent ListOptions ∧ ReadsByContent SortSpec ∧
      ReadsByContent Attachment ∧ ReadsByContent Thumbnails ∧ ReadsByContent Thumbnail :=
  ⟨readsByContent_of_distinct (by decide), readsByContent_of_distinct (by decide),
    readsByContent_of_distinct (by decide), readsByContent_of_distinct (by decide),
    readsByContent_of_distinct (by decide), readsByContent_of_distinct (by decide)⟩

/-- Previews with other members and in another order, outside and inside, are read as the same
previews. A preview of which two members do not fit is refused for the one that comes first. -/
theorem structures_readByContent_reordered :
    let url : String × Json := ("url", .string "https://files.example.com/a.png")
    let width : String × Json := ("width", .integer 36)
    let height : String × Json := ("height", .integer 27)
    let small : Json := .object [url, width, height]
    let other : Json := .object [height, ("format", .string "png"), url, width]
    let value : Json := .object [("small", small), ("full", .null)]
    let rearranged : Json := .object [("full", .null), ("seen", .boolean true), ("small", other)]
    let t : Thumbnails :=
      ⟨some ⟨"https://files.example.com/a.png", ⟨36, by decide⟩, ⟨27, by decide⟩⟩, none, none⟩
    (shape Thumbnails).Rearranges value rearranged ∧ decode value = .ok t ∧
      decode rearranged = .ok t ∧
      (decode (.object [("height", .null), ("url", .integer 1)]) : Except DecodeError Thumbnail) =
        .error (.invalidType .null "u32") ∧
      (decode (.object [("url", .integer 1), ("height", .null)]) : Except DecodeError Thumbnail) =
        .error (.invalidType (.integer 1) "a string") := by
  intro url width height small other value rearranged t
  obtain ⟨-, -, -, -, hthumbnails, hthumbnail⟩ := structures_readByContent
  have hsmall : (shape Thumbnail).Rearranges small other := by
    have hreorder : (shape Thumbnail).Rearranges small (.object ([height] ++ [url, width])) :=
      .reorder (by decide) (List.perm_append_singleton height [url, width])
    exact .trans hreorder (.add (by decide) (by decide))
  have hrearranges : (shape Thumbnails).Rearranges value rearranged := by
    have hinside : (shape Thumbnails).Rearranges
        (.object ([] ++ ("small", small) :: [("full", .null)]))
        (.object ([] ++ ("small", other) :: [("full", .null)])) := .member (by decide) rfl hsmall
    have hreorder : (shape Thumbnails).Rearranges
        (.object ([] ++ ("small", other) :: [("full", .null)]))
        (.object ([("full", .null)] ++ [("small", other)])) := .reorder (by decide) (.swap _ _ _)
    exact .trans hinside (.trans hreorder (.add (by decide) (by decide)))
  have hvalue : decode value = .ok t := rfl
  refine ⟨hrearranges, hvalue, (hthumbnails.content _ _ hrearranges t).mp hvalue, ?_, ?_⟩
  · have hheight : (shape Thumbnail).Refuses
        (.object ([] ++ ("height", .null) :: [("url", .integer 1)])) (.invalidType .null "u32") :=
      .member nofun rfl rfl (.whole rfl rfl)
    exact (hthumbnail.refused _ _).mpr hheight
  · have hurl : (shape Thumbnail).Refuses
        (.object ([] ++ ("url", .integer 1) :: [("height", .null)]))
        (.invalidType (.integer 1) "a string") := .member nofun rfl rfl (.whole rfl rfl)
    exact (hthumbnail.refused _ _).mpr hurl

end Shaped

end RecordQuery
