import RecordQuery.Proofs.Error.Chain
import RecordQuery.Proofs.Except
import RecordQuery.Session.Operation

/-!
# Reading Values of a Row

A value of a row that is there and is not `null` is handed to a reader. Where the reader wants
something else, the error names the field, the kind of what was found and what was wanted: the
value is *misread*. Readers fail in no other way. What is found is the value itself, or an item
of it where attachments are read.

An accessor of texts, of numbers or of booleans refuses the values of all other kinds. Where all
attachments are wanted, a value that is no array is refused as a whole, and of an array its first
item that is no attachment.

## Main results

* `Row.attachment_of_single`, `Row.attachments_of_array` — attachments are read one by one, each
  in the same way;
* `Accessor.read_eq_error_iff` — which values an accessor refuses, and what it tells;
* `Accessor.exists_misread` — a value that cannot be read is misread.
-/

namespace RecordQuery

/-! ### Misread values -/

namespace Error

/-- The error of a value under a name that is not what its reader wants. -/
def misread (name : String) (found : Json) (target : String) : Error :=
  (typeConversion found target).under (.remark ("field `" ++ name ++ "`"))

variable (name : String) (found : Json) (target : String)

/-- What is said about a misread value. -/
theorem display_misread :
    (misread name found target).display =
      "field `" ++ name ++ "`" ++ ": " ++
        ("cannot convert " ++ found.kind.name ++ " to " ++ target) :=
  (display_under _ _).trans (congrArg _ (display_ofReport _))

/-- A misread value is a matter of types, and neither of a store nor of a statement. -/
theorem kind_misread : (misread name found target).kind = .typeConversion := rfl

end Error

/-! ### One value -/

namespace Row

variable {row : Row} {name : String} {value : Json} {α : Type}
  {reader : Json → Except Error (Option α)}

/-- A value that is there and is not `null` is read by the reader. -/
theorem read_of_get? (h : row.get? name = some value) (hnull : value ≠ .null) :
    row.read name reader =
      (reader value).mapError fun e => e.under (.remark ("field `" ++ name ++ "`")) := by
  have hthere : ¬ value.isNull = true := fun h => hnull (by cases value <;> first | rfl | cases h)
  rw [read, h, Option.filter_some, if_pos (by simpa using hthere)]

/-- A value that is not there, or that is `null`, is read as nothing. -/
theorem read_of_absent (h : row.get? name = none ∨ row.get? name = some .null) :
    row.read name reader = .ok none := by
  obtain h | h := h <;> (rw [read, h]; rfl)

/-- What is not read as nothing is there and is not `null`. -/
theorem exists_get?_of_read (h : row.read name reader ≠ .ok none) :
    ∃ value, row.get? name = some value ∧ value ≠ .null := by
  cases hget : row.get? name with
  | none => exact absurd (read_of_absent (.inl hget)) h
  | some value =>
      refine ⟨value, rfl, ?_⟩
      rintro rfl
      exact h (read_of_absent (.inr hget))

/-- Something is read when the reader reads it from a value that is there. -/
theorem read_eq_some_iff {x : α} :
    row.read name reader = .ok (some x) ↔
      ∃ value, row.get? name = some value ∧ value ≠ .null ∧ reader value = .ok (some x) := by
  constructor
  · intro h
    obtain ⟨value, hget, hnull⟩ := exists_get?_of_read (by rw [h]; nofun)
    rw [read_of_get? hget hnull, mapError_eq_ok_iff] at h
    exact ⟨value, hget, hnull, h⟩
  · rintro ⟨value, hget, hnull, hread⟩
    exact (read_of_get? hget hnull).trans (mapError_eq_ok_iff.mpr hread)

/-- Reading fails when the reader fails on a value that is there. -/
theorem read_eq_error_iff {e : Error} :
    row.read name reader = .error e ↔
      ∃ value cause, row.get? name = some value ∧ value ≠ .null ∧
        reader value = .error cause ∧ e = cause.under (.remark ("field `" ++ name ++ "`")) := by
  constructor
  · intro h
    obtain ⟨value, hget, hnull⟩ := exists_get?_of_read (by rw [h]; nofun)
    rw [read_of_get? hget hnull, mapError_eq_error_iff] at h
    obtain ⟨cause, hread, he⟩ := h
    exact ⟨value, cause, hget, hnull, hread, he⟩
  · rintro ⟨value, cause, hget, hnull, hread, rfl⟩
    exact (read_of_get? hget hnull).trans (mapError_eq_error_iff.mpr ⟨cause, hread, rfl⟩)

end Row

/-! ### Values of one kind -/

namespace Row

variable {row : Row} {name : String} {value : Json}

/-- A text is read where the value is one, and anything else is misread. -/
theorem text_of_get? (h : row.get? name = some value) (hnull : value ≠ .null) :
    row.text name =
      match value with
      | .string text => .ok (some text)
      | other => .error (.misread name other "String") := by
  rw [text, read_of_get? h hnull]
  cases value <;> rfl

/-- A number is read where the value is one, and anything else is misread. -/
theorem number_of_get? (h : row.get? name = some value) (hnull : value ≠ .null) :
    row.number name =
      match value with
      | .integer n => .ok (some (.ofInt n))
      | .float x => .ok (some x)
      | other => .error (.misread name other "f64") := by
  rw [number, read_of_get? h hnull]
  cases value <;> rfl

/-- A boolean is read where the value is one, and anything else is misread. -/
theorem boolean_of_get? (h : row.get? name = some value) (hnull : value ≠ .null) :
    row.boolean name =
      match value with
      | .boolean flag => .ok (some flag)
      | other => .error (.misread name other "bool") := by
  rw [boolean, read_of_get? h hnull]
  cases value <;> rfl

end Row

/-! ### Attachments -/

namespace Json

/-- The value that may be one attachment: an object, or the one item of an array. -/
def single? : Json → Option Json
  | .object members => some (.object members)
  | .array [item] => some item
  | _ => none

/-- What may be one attachment is an object, or the one item of an array. -/
theorem single?_eq_some_iff {value x : Json} :
    value.single? = some x ↔ (value = x ∧ x.kind = .object) ∨ value = .array [x] := by
  constructor
  · intro h
    cases value with
    | object members =>
        cases h
        exact .inl ⟨rfl, rfl⟩
    | array items =>
        obtain _ | ⟨item, _ | ⟨second, rest⟩⟩ := items <;> cases h
        exact .inr rfl
    | _ => cases h
  · rintro (⟨rfl, hobject⟩ | rfl)
    · cases value <;> cases hobject
      rfl
    · rfl

end Json

namespace Attachment

variable {name : String} {item : Json}

/-- Reads an attachment from a value, or from an item of it, under a name. -/
def readUnder (name : String) (item : Json) : Except Error Attachment :=
  (ofJson item).mapError fun e => e.under (.remark ("field `" ++ name ++ "`"))

/-- An attachment is read as its shape is. -/
theorem readUnder_eq_ok_iff {a : Attachment} :
    readUnder name item = .ok a ↔ Shaped.decode item = .ok a := by
  have hread : ofJson item = .ok a ↔ Shaped.decode item = .ok a := by
    rw [ofJson]
    cases Shaped.decode (α := Attachment) item <;> simp
  exact mapError_eq_ok_iff.trans hread

/-- What is no attachment is misread, and nothing else is. -/
theorem readUnder_eq_error_iff {e : Error} :
    readUnder name item = .error e ↔
      (∀ a : Attachment, Shaped.decode item ≠ .ok a) ∧ e = .misread name item "Attachment" := by
  rw [readUnder, ofJson]
  cases Shaped.decode (α := Attachment) item with
  | ok a => simp [Except.mapError]
  | error fault =>
      simp only [Except.mapError, ne_eq, reduceCtorEq, not_false_eq_true, implies_true, true_and,
        Except.error.injEq]
      exact eq_comm

/-- What is no attachment is misread. -/
theorem eq_misread_of_readUnder {e : Error} (h : readUnder name item = .error e) :
    e = .misread name item "Attachment" := (readUnder_eq_error_iff.mp h).2

end Attachment

namespace Row

variable {row : Row} {name : String} {value x : Json}

/-- **One attachment** is read from an object, and in the same way from the one item of an
array, whatever this is. -/
theorem attachment_of_single (h : row.get? name = some value) (hx : value.single? = some x) :
    row.attachment name = some <$> Attachment.readUnder name x := by
  obtain ⟨rfl, hobject⟩ | rfl := Json.single?_eq_some_iff.mp hx
  · cases value <;> cases hobject
    rw [attachment, read_of_get? h nofun]
    exact mapError_map some _ _
  · rw [attachment, read_of_get? h nofun]
    exact mapError_map some _ _

/-- An empty array holds no attachment. -/
theorem attachment_of_empty (h : row.get? name = some (.array [])) :
    row.attachment name = .ok none := by
  rw [attachment, read_of_get? h nofun]
  rfl

/-- Any other value is misread where one attachment is wanted. -/
theorem attachment_of_not_single (h : row.get? name = some value) (hnull : value ≠ .null)
    (hempty : value ≠ .array []) (hsingle : value.single? = none) :
    row.attachment name = .error (.misread name value "Attachment") := by
  rw [attachment, read_of_get? h hnull]
  cases value with
  | object members => cases hsingle
  | array items =>
      obtain _ | ⟨item, _ | ⟨second, rest⟩⟩ := items
      · exact absurd rfl hempty
      · cases hsingle
      · rfl
  | _ => rfl

/-- **The attachments of an array** are read one by one. -/
theorem attachments_of_array {items : List Json} (h : row.get? name = some (.array items)) :
    row.attachments name = some <$> items.mapM (Attachment.readUnder name) := by
  have hitems : items.mapM (Attachment.readUnder name) =
      (items.mapM Attachment.ofJson).mapError fun e =>
        e.under (.remark ("field `" ++ name ++ "`")) := mapM_mapError items
  rw [attachments, read_of_get? h nofun, hitems]
  exact mapError_map some _ _

/-- A value that is no array is misread where attachments are wanted. -/
theorem attachments_of_other (h : row.get? name = some value) (hnull : value ≠ .null)
    (harray : value.kind ≠ .array) :
    row.attachments name = .error (.misread name value "Vec<Attachment>") := by
  rw [attachments, read_of_get? h hnull]
  cases value with
  | array items => exact absurd rfl harray
  | _ => rfl

end Row

/-! ### What accessors refuse -/

namespace Accessor

/-- The kind that an accessor reads, and what it is called, for accessors of one kind. -/
def scalar? : Accessor → Option (Json.Kind × String)
  | .text => some (.string, "String")
  | .number => some (.number, "f64")
  | .boolean => some (.boolean, "bool")
  | _ => none

/-- What an accessor refuses in a value, and what it wants instead. What is refused is the value
itself or, where it may hold attachments, an item of it. -/
inductive Misreads : Accessor → Json → Json → String → Prop
  /-- A value of another kind. -/
  | scalar {accessor : Accessor} {kind : Json.Kind} {target : String} {value : Json}
      (hscalar : accessor.scalar? = some (kind, target)) (h : value.kind ≠ kind) :
      Misreads accessor value value target
  /-- An object, or the one item of an array, that is no attachment. -/
  | single {value item : Json} (h : value.single? = some item)
      (hitem : ∀ a : Attachment, Shaped.decode item ≠ .ok a) :
      Misreads .attachment value item "Attachment"
  /-- A value that is neither an object nor an array of at most one item. -/
  | several {value : Json} (h : value.single? = none) (hempty : value ≠ .array []) :
      Misreads .attachment value value "Attachment"
  /-- A value that is no array. -/
  | whole {value : Json} (h : value.kind ≠ .array) :
      Misreads .attachments value value "Vec<Attachment>"
  /-- The first item of an array that is no attachment. -/
  | item {before after : List Json} {item : Json}
      (hbefore : ∀ earlier ∈ before, ∃ a : Attachment, Shaped.decode earlier = .ok a)
      (hitem : ∀ a : Attachment, Shaped.decode item ≠ .ok a) :
      Misreads .attachments (.array (before ++ item :: after)) item "Attachment"

variable {row : Row} {name : String} {value : Json} {e : Error}

/-- One attachment is refused where there is none, or several things. -/
theorem attachment_eq_error_iff (h : row.get? name = some value) (hnull : value ≠ .null) :
    row.attachment name = .error e ↔
      ∃ found target, Misreads .attachment value found target ∧
        e = .misread name found target := by
  cases hsingle : value.single? with
  | some x =>
      rw [Row.attachment_of_single h hsingle, map_eq_error_iff, Attachment.readUnder_eq_error_iff]
      constructor
      · rintro ⟨hitem, rfl⟩
        exact ⟨_, _, .single hsingle hitem, rfl⟩
      · rintro ⟨_, _, hmisreads, rfl⟩
        cases hmisreads with
        | scalar hscalar _ => cases hscalar
        | single h hitem =>
            rw [hsingle] at h
            cases h
            exact ⟨hitem, rfl⟩
        | several h _ =>
            rw [hsingle] at h
            cases h
  | none =>
      by_cases hempty : value = .array []
      · subst hempty
        rw [Row.attachment_of_empty h]
        refine iff_of_false nofun ?_
        rintro ⟨_, _, hmisreads, -⟩
        cases hmisreads with
        | scalar hscalar _ => cases hscalar
        | single h _ => cases h
        | several _ hempty => exact hempty rfl
      · rw [Row.attachment_of_not_single h hnull hempty hsingle]
        constructor
        · intro he
          cases he
          exact ⟨_, _, .several hsingle hempty, rfl⟩
        · rintro ⟨_, _, hmisreads, rfl⟩
          cases hmisreads with
          | scalar hscalar _ => cases hscalar
          | single h _ =>
              rw [hsingle] at h
              cases h
          | several _ _ => rfl

/-- All attachments are refused where there is no array, or an item that is none. -/
theorem attachments_eq_error_iff (h : row.get? name = some value) (hnull : value ≠ .null) :
    row.attachments name = .error e ↔
      ∃ found target, Misreads .attachments value found target ∧
        e = .misread name found target := by
  by_cases harray : value.kind = .array
  · cases value <;> cases harray
    rw [Row.attachments_of_array h, map_eq_error_iff, mapM_eq_error_iff]
    simp only [Attachment.readUnder_eq_ok_iff, Attachment.readUnder_eq_error_iff]
    constructor
    · rintro ⟨before, item, after, rfl, hbefore, hitem, rfl⟩
      exact ⟨_, _, .item hbefore hitem, rfl⟩
    · rintro ⟨_, _, hmisreads, rfl⟩
      cases hmisreads with
      | scalar hscalar _ => cases hscalar
      | whole h => exact absurd rfl h
      | item hbefore hitem => exact ⟨_, _, _, rfl, hbefore, hitem, rfl⟩
  · rw [Row.attachments_of_other h hnull harray]
    constructor
    · intro he
      cases he
      exact ⟨_, _, .whole harray, rfl⟩
    · rintro ⟨_, _, hmisreads, rfl⟩
      cases hmisreads with
      | scalar hscalar _ => cases hscalar
      | whole _ => rfl
      | item _ _ => exact absurd rfl harray

variable {accessor : Accessor} {kind : Json.Kind} {target : String}

/-- An accessor of one kind reads the values of that kind. -/
theorem exists_read_of_kind (hscalar : accessor.scalar? = some (kind, target))
    (h : row.get? name = some value) (hnull : value ≠ .null) (hkind : value.kind = kind) :
    ∃ found, accessor.read row name = .ok found := by
  cases accessor <;> cases hscalar
  · cases value <;> cases hkind
    exact ⟨_, by rw [read, Row.text_of_get? h hnull]; rfl⟩
  · cases value <;> cases hkind <;>
      exact ⟨_, by rw [read, Row.number_of_get? h hnull]; rfl⟩
  · cases value <;> cases hkind
    exact ⟨_, by rw [read, Row.boolean_of_get? h hnull]; rfl⟩

/-- An accessor of one kind refuses the values of all others. -/
theorem read_of_kind_ne (hscalar : accessor.scalar? = some (kind, target))
    (h : row.get? name = some value) (hnull : value ≠ .null) (hkind : value.kind ≠ kind) :
    accessor.read row name = .error (.misread name value target) := by
  cases accessor <;> cases hscalar
  · rw [read, Row.text_of_get? h hnull]
    cases value <;> first | rfl | exact absurd rfl hkind
  · rw [read, Row.number_of_get? h hnull]
    cases value <;> first | rfl | exact absurd rfl hkind
  · rw [read, Row.boolean_of_get? h hnull]
    cases value <;> first | rfl | exact absurd rfl hkind

/-- Values of another kind are refused by an accessor of one kind. -/
theorem read_scalar_eq_error_iff (hscalar : accessor.scalar? = some (kind, target))
    (h : row.get? name = some value) (hnull : value ≠ .null) :
    accessor.read row name = .error e ↔
      ∃ found target, accessor.Misreads value found target ∧ e = .misread name found target := by
  have hmisreads : ∀ found wanted, accessor.Misreads value found wanted →
      value.kind ≠ kind ∧ found = value ∧ wanted = target := by
    intro found wanted hfound
    cases hfound with
    | scalar hscalar' hkind =>
        cases hscalar.symm.trans hscalar'
        exact ⟨hkind, rfl, rfl⟩
    | single | several | whole | item => cases hscalar
  by_cases hkind : value.kind = kind
  · obtain ⟨found, hfound⟩ := exists_read_of_kind hscalar h hnull hkind
    rw [hfound]
    refine iff_of_false nofun ?_
    rintro ⟨found, wanted, hwanted, -⟩
    exact (hmisreads found wanted hwanted).1 hkind
  · rw [read_of_kind_ne hscalar h hnull hkind]
    constructor
    · intro he
      cases he
      exact ⟨value, target, .scalar hscalar hkind, rfl⟩
    · rintro ⟨found, wanted, hwanted, rfl⟩
      obtain ⟨-, rfl, rfl⟩ := hmisreads found wanted hwanted
      rfl

/-- **What an accessor tells of a value that it refuses**: the name that was asked for, what was
found and what was wanted. -/
theorem read_eq_error_iff (accessor : Accessor) (h : row.get? name = some value)
    (hnull : value ≠ .null) :
    accessor.read row name = .error e ↔
      ∃ found target, accessor.Misreads value found target ∧ e = .misread name found target := by
  cases accessor with
  | text | number | boolean => exact read_scalar_eq_error_iff rfl h hnull
  | attachment => exact map_eq_error_iff.trans (attachment_eq_error_iff h hnull)
  | attachments => exact map_eq_error_iff.trans (attachments_eq_error_iff h hnull)

/-- **A value that cannot be read is misread**, whatever it is read as. -/
theorem exists_misread (h : accessor.read row name = .error e) :
    ∃ found target, e = .misread name found target := by
  have hthere : ∃ value, row.get? name = some value ∧ value ≠ .null := by
    cases accessor <;>
      obtain ⟨value, -, hget, hnull, -⟩ := Row.read_eq_error_iff.mp (map_eq_error_iff.mp h) <;>
      exact ⟨value, hget, hnull⟩
  obtain ⟨value, hget, hnull⟩ := hthere
  obtain ⟨found, target, -, he⟩ := (read_eq_error_iff accessor hget hnull).mp h
  exact ⟨found, target, he⟩

end Accessor

namespace Row

variable {row : Row} {name : String} {e : Error}

/-- Where one attachment cannot be read, a value or an item of it is misread. -/
theorem exists_misread_of_attachment (h : row.attachment name = .error e) :
    ∃ found target, e = .misread name found target := by
  have hread : Accessor.attachment.read row name = .error e := map_eq_error_iff.mpr h
  exact Accessor.exists_misread hread

/-- Where attachments cannot be read, a value or an item of it is misread. -/
theorem exists_misread_of_attachments (h : row.attachments name = .error e) :
    ∃ found target, e = .misread name found target := by
  have hread : Accessor.attachments.read row name = .error e := map_eq_error_iff.mpr h
  exact Accessor.exists_misread hread

end Row

end RecordQuery
