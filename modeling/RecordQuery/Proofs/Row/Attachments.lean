import RecordQuery.Proofs.Row.Reading
import RecordQuery.Proofs.Shape.Parts

/-!
# Attachments of a Row

An attachment *stands in* a value when the parts of the value are its contents: in an object the
parts are under their keys, in an array they are at their places, which is how a structure may
be written as well. An attachment is read from a value exactly when it stands in it.

A store reports the attachments of a field in an array, a single one as well as many. One
attachment is read from an object or from an array of one item, all of them from an array of
any length, and the readers agree on whatever both of them read.

## Main results

* `Attachment.decode_eq_ok_iff` — an attachment is read from the values it stands in;
* `Row.attachment_stands_in` — what is read from a row, and when nothing is;
* `Row.attachment_encodings` — the readers and the two ways to write one attachment agree.
-/

namespace RecordQuery

/-! ### Attachments in values -/

variable {value : Json}

/-- Whether a preview stands in a value. -/
structure Thumbnail.StandsIn (t : Thumbnail) (value : Json) : Prop where
  record : value.IsRecord 3
  url : value.part? "url" 0 = some (.string t.url)
  width : value.part? "width" 1 = some (.integer (Fin.val t.width))
  height : value.part? "height" 2 = some (.integer (Fin.val t.height))

/-- Whether previews stand in a value, each of them missing, `null` or a preview. -/
structure Thumbnails.StandsIn (t : Thumbnails) (value : Json) : Prop where
  record : value.IsRecord 3
  small : Json.Optionally (fun found t => t.StandsIn found) (value.part? "small" 0) t.small
  large : Json.Optionally (fun found t => t.StandsIn found) (value.part? "large" 1) t.large
  full : Json.Optionally (fun found t => t.StandsIn found) (value.part? "full" 2) t.full

/-- Whether an attachment stands in a value. The dimensions of an image and its previews may be
missing or `null`, and all else must be there. -/
structure Attachment.StandsIn (a : Attachment) (value : Json) : Prop where
  record : value.IsRecord 8
  id : value.part? "id" 0 = some (.string a.id)
  url : value.part? "url" 1 = some (.string a.url)
  filename : value.part? "filename" 2 = some (.string a.filename)
  size : value.part? "size" 3 = some (.integer (Fin.val a.size))
  mimeType : value.part? "type" 4 = some (.string a.mimeType)
  width :
    Json.Optionally (fun found n => found = .integer (Fin.val n)) (value.part? "width" 5) a.width
  height :
    Json.Optionally (fun found n => found = .integer (Fin.val n)) (value.part? "height" 6) a.height
  thumbnails :
    Json.Optionally (fun found t => t.StandsIn found) (value.part? "thumbnails" 7) a.thumbnails

/-- A preview is read from the values it stands in. -/
theorem Thumbnail.decode_eq_ok_iff (h : value.WellFormed) (t : Thumbnail) :
    Shaped.decode value = .ok t ↔ t.StandsIn value := by
  have hread (v : Thumbnail.shape.Value) : Thumbnail.shape.decode value = .ok v ↔ _ :=
    Shape.decode_record_eq_ok_iff (by decide) h.hasDistinctNames v
  rw [Shaped.decode_eq_ok_iff]
  constructor
  · rintro ⟨v, hv, rfl⟩
    obtain ⟨hrecord, hurl, hwidth, hheight, -⟩ := (hread v).mp hv
    exact
      { record := hrecord
        url := Presence.holds_text_iff.mp hurl
        width := Presence.holds_unsigned_iff.mp hwidth
        height := Presence.holds_unsigned_iff.mp hheight }
  · intro ht
    refine ⟨Shaped.toValue t, (hread _).mpr ⟨ht.record, ?_, ?_, ?_, trivial⟩, rfl⟩
    · exact Presence.holds_text_iff.mpr ht.url
    · exact Presence.holds_unsigned_iff.mpr ht.width
    · exact Presence.holds_unsigned_iff.mpr ht.height

/-- Previews are read from the values they stand in. -/
theorem Thumbnails.decode_eq_ok_iff (h : value.WellFormed) (t : Thumbnails) :
    Shaped.decode value = .ok t ↔ t.StandsIn value := by
  have hread (v : Thumbnails.shape.Value) : Thumbnails.shape.decode value = .ok v ↔ _ :=
    Shape.decode_record_eq_ok_iff (by decide) h.hasDistinctNames v
  have hpart (key : String) (place : Nat) (t : Option Thumbnail) := Shaped.exists_holds_iff
    (x := t) h (fun _ => Thumbnail.decode_eq_ok_iff) key place
  rw [Shaped.decode_eq_ok_iff]
  constructor
  · rintro ⟨v, hv, rfl⟩
    obtain ⟨hrecord, hsmall, hlarge, hfull, -⟩ := (hread v).mp hv
    exact
      { record := hrecord
        small := (hpart _ _ _).mp ⟨_, hsmall, rfl⟩
        large := (hpart _ _ _).mp ⟨_, hlarge, rfl⟩
        full := (hpart _ _ _).mp ⟨_, hfull, rfl⟩ }
  · intro ht
    obtain ⟨_, _, _⟩ := t
    obtain ⟨small, hsmall, rfl⟩ := (hpart _ _ _).mpr ht.small
    obtain ⟨large, hlarge, rfl⟩ := (hpart _ _ _).mpr ht.large
    obtain ⟨full, hfull, rfl⟩ := (hpart _ _ _).mpr ht.full
    exact ⟨(small, large, full, ()),
      (hread _).mpr ⟨ht.record, hsmall, hlarge, hfull, trivial⟩, rfl⟩

/-- **An attachment is read from the values it stands in.** -/
theorem Attachment.decode_eq_ok_iff (h : value.WellFormed) (a : Attachment) :
    Shaped.decode value = .ok a ↔ a.StandsIn value := by
  have hread (v : Attachment.shape.Value) : Attachment.shape.decode value = .ok v ↔ _ :=
    Shape.decode_record_eq_ok_iff (by decide) h.hasDistinctNames v
  have hpart (t : Option Thumbnails) := Shaped.exists_holds_iff
    (x := t) h (fun _ => Thumbnails.decode_eq_ok_iff) "thumbnails" 7
  rw [Shaped.decode_eq_ok_iff]
  constructor
  · rintro ⟨v, hv, rfl⟩
    obtain ⟨hrecord, hid, hurl, hfilename, hsize, htype, hwidth, hheight, hthumbnails, -⟩ :=
      (hread v).mp hv
    exact
      { record := hrecord
        id := Presence.holds_text_iff.mp hid
        url := Presence.holds_text_iff.mp hurl
        filename := Presence.holds_text_iff.mp hfilename
        size := Presence.holds_unsigned_iff.mp hsize
        mimeType := Presence.holds_text_iff.mp htype
        width := Presence.holds_optional_unsigned_iff.mp hwidth
        height := Presence.holds_optional_unsigned_iff.mp hheight
        thumbnails := (hpart _).mp ⟨_, hthumbnails, rfl⟩ }
  · intro ha
    obtain ⟨thumbnails, hthumbnails, heq⟩ := (hpart _).mpr ha.thumbnails
    refine ⟨(a.id, a.url, a.filename, a.size, a.mimeType, a.width, a.height, thumbnails, ()),
      (hread _).mpr ⟨ha.record, ?_, ?_, ?_, ?_, ?_, ?_, ?_, hthumbnails, trivial⟩, ?_⟩
    · exact Presence.holds_text_iff.mpr ha.id
    · exact Presence.holds_text_iff.mpr ha.url
    · exact Presence.holds_text_iff.mpr ha.filename
    · exact Presence.holds_unsigned_iff.mpr ha.size
    · exact Presence.holds_text_iff.mpr ha.mimeType
    · exact Presence.holds_optional_unsigned_iff.mpr ha.width
    · exact Presence.holds_optional_unsigned_iff.mpr ha.height
    · exact congrArg (Attachment.mk a.id a.url a.filename a.size a.mimeType a.width a.height) heq

/-! ### What is read from a row -/

/-- What may be one attachment can be written as JSON if the value can. -/
theorem Json.WellFormed.of_single {x : Json} (h : value.WellFormed)
    (hx : value.single? = some x) : x.WellFormed := by
  obtain ⟨rfl, -⟩ | rfl := Json.single?_eq_some_iff.mp hx
  · exact h
  · exact WellFormedItems.of_mem h List.mem_cons_self

namespace Row

variable {row : Row} {name : String}

/-- One attachment is read where it stands in an object or in the one item of an array. -/
theorem attachment_eq_some_iff (h : row.get? name = some value) (hnull : value ≠ .null)
    (hvalue : value.WellFormed) {a : Attachment} :
    row.attachment name = .ok (some a) ↔ ∃ x, value.single? = some x ∧ a.StandsIn x := by
  cases hsingle : value.single? with
  | some x =>
      have hx : x.WellFormed := hvalue.of_single hsingle
      simp [attachment_of_single h hsingle, map_eq_ok_iff, Attachment.readUnder_eq_ok_iff,
        Attachment.decode_eq_ok_iff hx]
  | none =>
      by_cases hempty : value = .array []
      · subst hempty
        simp [attachment_of_empty h]
      · simp [attachment_of_not_single h hnull hempty hsingle]

/-- Nothing is read as one attachment where an array is empty. -/
theorem attachment_eq_none_iff (h : row.get? name = some value) (hnull : value ≠ .null) :
    row.attachment name = .ok none ↔ value = .array [] := by
  by_cases hempty : value = .array []
  · subst hempty
    simp [attachment_of_empty h]
  · cases hsingle : value.single? with
    | some x => simp [attachment_of_single h hsingle, map_eq_ok_iff, hempty]
    | none => simp [attachment_of_not_single h hnull hempty hsingle, hempty]

/-- All attachments are read where each of them stands in the item of an array. -/
theorem attachments_eq_ok_iff (h : row.get? name = some value) (hnull : value ≠ .null)
    (hvalue : value.WellFormed) {found : Option (List Attachment)} :
    row.attachments name = .ok found ↔
      ∃ items as, value = .array items ∧ found = some as ∧
        List.Forall₂ (fun item a => a.StandsIn item) items as := by
  by_cases harray : value.kind = .array
  · cases value <;> cases harray
    rename_i items
    have hitems (as : List Attachment) :
        items.mapM (Attachment.readUnder name) = .ok as ↔
          List.Forall₂ (fun item a => a.StandsIn item) items as :=
      mapM_eq_ok_iff.trans <| forall₂_congr_of_mem fun item hitem a =>
        Attachment.readUnder_eq_ok_iff.trans <|
          Attachment.decode_eq_ok_iff (Json.WellFormedItems.of_mem hvalue hitem) a
    rw [attachments_of_array h, map_eq_ok_iff]
    constructor
    · rintro ⟨as, has, rfl⟩
      exact ⟨items, as, rfl, rfl, (hitems as).mp has⟩
    · rintro ⟨items', as, heq, rfl, has⟩
      cases heq
      exact ⟨as, (hitems as).mpr has, rfl⟩
  · rw [attachments_of_other h hnull harray]
    constructor
    · exact nofun
    · rintro ⟨items, as, rfl, -, -⟩
      exact absurd rfl harray

/-- **Attachments are read where they stand.** Of a value that is there and not `null`, one
attachment is read where it stands in an object or in the one item of an array, and nothing where
an array is empty. All attachments are read where they stand, one by one, in the items of an
array. Any other value is a matter of types. -/
theorem attachment_stands_in (h : row.get? name = some value) (hnull : value ≠ .null)
    (hvalue : value.WellFormed) :
    (∀ a, row.attachment name = .ok (some a) ↔
      ∃ x, ((value = x ∧ x.kind = .object) ∨ value = .array [x]) ∧ a.StandsIn x) ∧
    (row.attachment name = .ok none ↔ value = .array []) ∧
    (∀ found, row.attachments name = .ok found ↔
      ∃ items as, value = .array items ∧ found = some as ∧
        List.Forall₂ (fun item a => a.StandsIn item) items as) ∧
    ∀ e, row.attachment name = .error e ∨ row.attachments name = .error e →
      e.kind = .typeConversion := by
  refine ⟨fun a => ?_, attachment_eq_none_iff h hnull,
    fun found => attachments_eq_ok_iff h hnull hvalue, fun e he => ?_⟩
  · simp only [attachment_eq_some_iff h hnull hvalue, Json.single?_eq_some_iff]
  · have hmisread : ∃ found target, e = .misread name found target :=
      he.elim exists_misread_of_attachment exists_misread_of_attachments
    obtain ⟨found, target, rfl⟩ := hmisread
    exact Error.kind_misread name found target

/-- An attached image of unknown width, without previews. -/
theorem attachment_stands_in_image :
    let x : Json := .object [("type", .string "image/png"), ("size", .integer 10),
      ("width", .null), ("thumbnails", .object [("small", .null)]), ("id", .string "att1"),
      ("filename", .string "a.png"), ("url", .string "https://files.example.com/a.png")]
    let a : Attachment := ⟨"att1", "https://files.example.com/a.png", "a.png", ⟨10, by decide⟩,
      "image/png", none, none, some ⟨none, none, none⟩⟩
    let row := Row.ofList "rec1" [("photo", some (.array [x]))]
    row.get? "photo" = some (.array [x]) ∧ Json.array [x] ≠ .null ∧ (Json.array [x]).WellFormed ∧
      row.attachment "photo" = .ok (some a) ∧ row.attachments "photo" = .ok (some [a]) := by
  intro x a row
  have hget : row.get? "photo" = some (.array [x]) := rfl
  have hwellFormed : (Json.array [x]).WellFormed := by
    refine ⟨⟨by decide, ?_⟩, trivial⟩
    exact ⟨trivial, trivial, trivial, ⟨by decide, trivial, trivial⟩, trivial, trivial, trivial,
      trivial⟩
  have ha : a.StandsIn x :=
    { record := trivial
      id := rfl
      url := rfl
      filename := rfl
      size := rfl
      mimeType := rfl
      width := .inr rfl
      height := .inl rfl
      thumbnails := ⟨_, rfl, nofun, trivial, .inr rfl, .inl rfl, .inl rfl⟩ }
  obtain ⟨hone, -, hall, -⟩ := attachment_stands_in hget nofun hwellFormed
  exact ⟨hget, nofun, hwellFormed, (hone a).mpr ⟨x, .inr rfl, ha⟩,
    (hall _).mpr ⟨[x], [a], rfl, rfl, .cons ha .nil⟩⟩

/-- The parts of an attachment, and of the previews in it, may be given by their places. -/
theorem attachment_from_places :
    let x : Json := .array [.string "att1", .string "https://files.example.com/a.pdf",
      .string "a.pdf", .integer 10, .string "application/pdf", .null, .null, .array []]
    let row := Row.ofList "rec1" [("doc", some (.array [x]))]
    (∃ a, row.attachment "doc" = .ok (some a) ∧ row.attachments "doc" = .ok (some [a])) ∧
      ¬ ∃ x, x.kind = .object ∧ (row.get? "doc" = some x ∨ row.get? "doc" = some (.array [x])) := by
  intro x row
  refine ⟨⟨⟨"att1", "https://files.example.com/a.pdf", "a.pdf", ⟨10, by decide⟩,
    "application/pdf", none, none, some ⟨none, none, none⟩⟩, rfl, rfl⟩, ?_⟩
  rintro ⟨y, hobject, hvalue | hitem⟩
  · cases hvalue
    cases hobject
  · cases hitem
    cases hobject

/-! ### Two ways to write one attachment -/

/-- **The readers and the two ways to write one attachment agree.** An object is read as one
attachment alone and in an array of its own, with one result, and as all attachments it is read
in the same way. The attachments of an array are read one by one, each as one attachment in an
array of its own, and the first that cannot be read says why. Of several items none is read as
one attachment. -/
theorem attachment_encodings (rows : Json → Row)
    (h : ∀ value, (rows value).get? name = some value) :
    (∀ x : Json, x.kind = .object →
      (rows (.array [x])).attachment name = (rows x).attachment name ∧
      (∀ found, (rows (.array [x])).attachments name = .ok found ↔
        ∃ a, (rows x).attachment name = .ok (some a) ∧ found = some [a]) ∧
      ∀ e, (rows (.array [x])).attachments name = .error e ↔
        (rows x).attachment name = .error e) ∧
    ∀ items,
      (∀ found, (rows (.array items)).attachments name = .ok found ↔
        ∃ as, found = some as ∧
          List.Forall₂ (fun item a => (rows (.array [item])).attachment name = .ok (some a))
            items as) ∧
      (∀ e, (rows (.array items)).attachments name = .error e ↔
        ∃ before item after, items = before ++ item :: after ∧
          (∀ earlier ∈ before, ∃ a, (rows (.array [earlier])).attachment name = .ok (some a)) ∧
          (rows (.array [item])).attachment name = .error e) ∧
      (∀ item e, (rows (.array [item])).attachment name = .error e →
        e = .misread name item "Attachment") ∧
      (2 ≤ items.length →
        (rows (.array items)).attachment name =
          .error (.misread name (.array items) "Attachment")) ∧
      ∀ found, (Error.misread name found "Attachment").display =
        "field `" ++ name ++ "`" ++ ": " ++
          ("cannot convert " ++ found.kind.name ++ " to " ++ "Attachment") := by
  -- One reader of items is behind all that is read, so that the cases differ only in what is made
  -- of its result.
  have hone (item : Json) : (rows (.array [item])).attachment name =
      some <$> Attachment.readUnder name item := attachment_of_single (h _) rfl
  have hall (items : List Json) : (rows (.array items)).attachments name =
      some <$> items.mapM (Attachment.readUnder name) := attachments_of_array (h _)
  refine ⟨fun x hx => ?_, fun items => ⟨fun found => ?_, fun e => ?_, fun item e he => ?_, ?_,
    fun found => Error.display_misread name found "Attachment"⟩⟩
  · have hbare : (rows x).attachment name = some <$> Attachment.readUnder name x :=
      attachment_of_single (h x) (Json.single?_eq_some_iff.mpr (.inl ⟨rfl, hx⟩))
    have hown : [x].mapM (Attachment.readUnder name) =
        (fun a => [a]) <$> Attachment.readUnder name x := by
      rw [List.mapM_cons, List.mapM_nil]
      cases Attachment.readUnder name x <;> rfl
    rw [hone, hbare, hall, hown]
    refine ⟨rfl, fun found => ?_, fun e => ?_⟩
    · simp only [map_eq_ok_iff, Option.some_inj, exists_eq_right]
      constructor
      · rintro ⟨_, ⟨a, ha, rfl⟩, rfl⟩
        exact ⟨a, ha, rfl⟩
      · rintro ⟨a, ha, rfl⟩
        exact ⟨_, ⟨a, ha, rfl⟩, rfl⟩
    · simp only [map_eq_error_iff]
  · simp only [hone, hall, map_eq_ok_iff, mapM_eq_ok_iff, Option.some_inj, exists_eq_right]
    exact exists_congr fun as => and_comm.trans (and_congr_left' eq_comm)
  · simp only [hone, hall, map_eq_error_iff, mapM_eq_error_iff, map_eq_ok_iff, Option.some_inj,
      exists_eq_right]
  · rw [hone, map_eq_error_iff] at he
    exact Attachment.eq_misread_of_readUnder he
  · intro hmany
    obtain _ | ⟨first, _ | ⟨second, rest⟩⟩ := items
    · cases hmany
    · exact absurd hmany (by simp)
    · exact attachment_of_not_single (h _) nofun nofun rfl

/-- One attachment is read as it is and from an array of its own, and two of them in order. Of two
items of which none is an attachment, the first says why there are no attachments, and the array
why there is no single one. -/
theorem attachment_encodings_photos :
    let rows (value : Json) := Row.ofList "rec1" [("photos", some value)]
    let photo (id : String) : Json := .object [("id", .string id), ("filename", .string "a.png"),
      ("url", .string "https://files.example.com/a.png"), ("size", .integer 10),
      ("type", .string "image/png")]
    let a (id : String) : Attachment := ⟨id, "https://files.example.com/a.png", "a.png",
      ⟨10, by decide⟩, "image/png", none, none, none⟩
    let items : List Json := [.string "a.png", .null]
    (∀ value, (rows value).get? "photos" = some value) ∧
      (rows (photo "att1")).attachment "photos" = .ok (some (a "att1")) ∧
      (rows (.array [photo "att1"])).attachment "photos" = .ok (some (a "att1")) ∧
      (rows (.array [photo "att1"])).attachments "photos" = .ok (some [a "att1"]) ∧
      (rows (.array [photo "att1", photo "att2"])).attachments "photos" =
        .ok (some [a "att1", a "att2"]) ∧
      (rows (.array items)).attachments "photos" =
        .error (.misread "photos" (.string "a.png") "Attachment") ∧
      (rows (.array items)).attachment "photos" =
        .error (.misread "photos" (.array items) "Attachment") := by
  intro rows photo a items
  have hrows (value : Json) : (rows value).get? "photos" = some value := rfl
  obtain ⟨hobject, harray⟩ := attachment_encodings rows hrows
  have hread (id : String) : (rows (photo id)).attachment "photos" = .ok (some (a id)) := rfl
  have hown (id : String) : (rows (.array [photo id])).attachment "photos" = .ok (some (a id)) :=
    (hobject (photo id) rfl).1.trans (hread id)
  obtain ⟨-, hone, -⟩ := hobject (photo "att1") rfl
  obtain ⟨htwo, -⟩ := harray [photo "att1", photo "att2"]
  obtain ⟨-, hfirst, -, hmany, -⟩ := harray items
  exact ⟨hrows, hread "att1", hown "att1", (hone _).mpr ⟨_, hread "att1", rfl⟩,
    (htwo _).mpr ⟨_, rfl, .cons (hown "att1") (.cons (hown "att2") .nil)⟩,
    (hfirst _).mpr ⟨[], .string "a.png", [.null], rfl, nofun, rfl⟩, hmany (by decide)⟩

end Row

end RecordQuery
