import RecordQuery.Proofs.Number.Value
import RecordQuery.Proofs.Row.Reading
import RecordQuery.Proofs.Session.Perform

/-!
# Exact Accessors

An accessor reads one value of a row. A name that was not asked for, a value that is absent and a
`null` are all read as nothing. Any other value has one kind, and every kind is read by one of the
accessors of texts, numbers and booleans and those of attachments at most; a number is read as the
float nearest to it.

A value that is refused is misread. Where all attachments are wanted, two things are told to be
wanted: an array, and of each of its items that it is an attachment. The remark about the field is
put in front of the new error, which is possible at any time.

## Main results

* `Accessor.eq_or_of_finds` — a value is read by accessors of one kind;
* `Accessor.exists_node_of_read` — the node of what an accessor fails with;
* `Row.accessors_exact` — all of this for every row, name and accessor.
-/

namespace RecordQuery

/-! ### What accessors find -/

namespace Accessor

variable {row : Row} {name : String} {accessor : Accessor}

/-- Whether an accessor reads something from a row. -/
def Finds (row : Row) (name : String) : Accessor → Prop
  | .text => ∃ found, row.text name = .ok (some found)
  | .number => ∃ found, row.number name = .ok (some found)
  | .boolean => ∃ found, row.boolean name = .ok (some found)
  | .attachment => ∃ found, row.attachment name = .ok (some found)
  | .attachments => ∃ found, row.attachments name = .ok (some found)

/-- The kinds of value from which an accessor may read something. -/
def kinds : Accessor → List Json.Kind
  | .text => [.string]
  | .number => [.number]
  | .boolean => [.boolean]
  | .attachment => [.object, .array]
  | .attachments => [.array]

/-- Whether an accessor reads attachments. -/
def readsAttachments : Accessor → Bool
  | .attachment | .attachments => true
  | _ => false

/-- What an accessor finds is in a value of one of its kinds. -/
theorem exists_of_finds (h : accessor.Finds row name) :
    ∃ value, row.get? name = some value ∧ value.kind ∈ accessor.kinds := by
  cases accessor with
  | text | number | boolean =>
      obtain ⟨found, hfound⟩ := h
      obtain ⟨value, hget, -, hread⟩ := Row.read_eq_some_iff.mp hfound
      refine ⟨value, hget, ?_⟩
      cases value <;> cases hread <;> exact List.mem_singleton.mpr rfl
  | attachment =>
      obtain ⟨found, hfound⟩ := h
      obtain ⟨value, hget, -, hread⟩ := Row.read_eq_some_iff.mp hfound
      refine ⟨value, hget, ?_⟩
      cases value with
      | object members => exact List.mem_cons_self
      | array items => exact List.mem_cons_of_mem _ List.mem_cons_self
      | _ => cases hread
  | attachments =>
      obtain ⟨found, hfound⟩ := h
      obtain ⟨value, hget, -, hread⟩ := Row.read_eq_some_iff.mp hfound
      refine ⟨value, hget, ?_⟩
      cases value with
      | array items => exact List.mem_cons_self
      | _ => cases hread

/-- **A value is read by accessors of one kind**: two that find something in it are one, or both
of them read attachments. -/
theorem eq_or_of_finds {a b : Accessor} (ha : a.Finds row name) (hb : b.Finds row name) :
    a = b ∨ (a.readsAttachments = true ∧ b.readsAttachments = true) := by
  obtain ⟨value, hvalue, hakind⟩ := exists_of_finds ha
  obtain ⟨value', hvalue', hbkind⟩ := exists_of_finds hb
  cases hvalue.symm.trans hvalue'
  cases a <;> cases b <;> simp_all [kinds, readsAttachments]

end Accessor

/-! ### Nodes of misread values -/

/-- A misread value can be told in any session: the report on the value and the remark about the
field are made one after the other, and the remark is put in front. The errors that are there stay
as they are. -/
theorem Session.Sound.exists_misread {s : Session} (hs : s.Sound) (name : String) (found : Json)
    (target : String) :
    ∃ heap, s.heap.remark s.roots (.typeConversion found.kind target) ("field `" ++ name ++ "`") =
        .ok heap ∧
      heap.error? (s.heap.size + 1) = some (.misread name found target) ∧
      ∀ n < s.heap.size, heap.error? n = s.heap.error? n :=
  hs.heap.exists_remark (fun _ hroot => hs.root_lt (Session.mem_roots_iff.mp hroot)) _ _

/-- **What an accessor fails with is the error of a node**: it is made of a report on a value in the
row, with the remark about the field put in front of it, and so it is told in any session. -/
theorem Accessor.exists_node_of_read {row : Row} {name : String} {accessor : Accessor} {e : Error}
    {s : Session} (hs : s.Sound) (h : accessor.read row name = .error e) :
    ∃ kind target heap,
      s.heap.remark s.roots (.typeConversion kind target) ("field `" ++ name ++ "`") = .ok heap ∧
      heap.error? (s.heap.size + 1) = some e ∧
      ∀ n < s.heap.size, heap.error? n = s.heap.error? n := by
  obtain ⟨found, target, rfl⟩ := exists_misread h
  exact ⟨found.kind, target, hs.exists_misread name found target⟩

/-! ### Rows -/

namespace Row

/-- All accessors read nothing where nothing is, and where there is a `null`. -/
theorem accessors_of_absent {row : Row} {name : String}
    (h : row.get? name = none ∨ row.get? name = some .null) :
    row.text name = .ok none ∧ row.number name = .ok none ∧ row.boolean name = .ok none ∧
      row.attachment name = .ok none ∧ row.attachments name = .ok none :=
  ⟨read_of_absent h, read_of_absent h, read_of_absent h, read_of_absent h, read_of_absent h⟩

/-- Two things are wanted where all attachments are: an array of them, and of each of its items
that it is one. So there is no one thing that is told to be wanted of a text. -/
theorem attachments_targets :
    let row := Row.ofList "rec1"
      [("photos", some (.array [.string "a.png"])), ("cover", some (.string "a.png"))]
    (∀ name ∈ ["photos", "cover"], ∃ e, row.attachments name = .error e) ∧
      ¬ ∃ target, ∀ name ∈ ["photos", "cover"], ∀ e, row.attachments name = .error e →
        e.display = "field `" ++ name ++ "`" ++ ": " ++
          ("cannot convert " ++ Json.Kind.string.name ++ " to " ++ target) := by
  intro row
  have hphotos : row.attachments "photos" =
      .error (.misread "photos" (.string "a.png") "Attachment") := rfl
  have hcover : row.attachments "cover" =
      .error (.misread "cover" (.string "a.png") "Vec<Attachment>") := rfl
  refine ⟨?_, ?_⟩
  · intro name hname
    simp only [List.mem_cons, List.not_mem_nil, or_false] at hname
    rcases hname with rfl | rfl
    · exact ⟨_, hphotos⟩
    · exact ⟨_, hcover⟩
  · rintro ⟨target, htarget⟩
    have hitem := htarget "photos" (by simp) _ hphotos
    have hwhole := htarget "cover" (by simp) _ hcover
    rw [Error.display_misread] at hitem hwhole
    replace hitem := congrArg String.length hitem
    replace hwhole := congrArg String.length hwhole
    simp only [String.length_append, Nat.add_left_cancel_iff] at hitem hwhole
    exact absurd (hitem.trans hwhole.symm) (by decide)

/-- **Accessors are exact.** A name that was not asked for, an absent value and a `null` are read
as nothing. Of any other value, a text is read where it is one, a number where it is one, as the
float nearest to it, and a boolean where it is one, and a value is read by accessors of one kind.
What is refused is told with the name of the field, the kind of what was found and what was
wanted, in a remark that can be put in front of the error after any steps. -/
theorem accessors_exact (row : Row) (name : String) (steps : List Step) :
    (row.fields.get? name = none ∨ row.fields.get? name = some none ∨
        row.fields.get? name = some (some .null) →
      row.text name = .ok none ∧ row.number name = .ok none ∧ row.boolean name = .ok none ∧
        row.attachment name = .ok none ∧ row.attachments name = .ok none) ∧
    (∀ value, row.fields.get? name = some (some value) → value ≠ .null →
      (∀ text, row.text name = .ok (some text) ↔ value = .string text) ∧
      (∀ x, row.number name = .ok (some x) ↔
        value = .float x ∨ ∃ n, value = .integer n ∧ x = .ofInt n) ∧
      (∀ flag, row.boolean name = .ok (some flag) ↔ value = .boolean flag) ∧
      ∀ accessor e, Accessor.read row name accessor = .error e ↔
        ∃ found target, accessor.Misreads value found target ∧ e = .misread name found target) ∧
    (∀ n : Int, (Binary.ofInt n : Binary64).IsNearest n) ∧
    (∀ a b : Accessor, a.Finds row name → b.Finds row name →
      a = b ∨ (a.readsAttachments = true ∧ b.readsAttachments = true)) ∧
    ∀ found target,
      (Error.misread name found target).display =
        "field `" ++ name ++ "`" ++ ": " ++
          ("cannot convert " ++ found.kind.name ++ " to " ++ target) ∧
      let s := Session.empty.after steps
      ∃ heap, s.heap.remark s.roots (.typeConversion found.kind target)
          ("field `" ++ name ++ "`") = .ok heap ∧
        heap.error? (s.heap.size + 1) = some (.misread name found target) ∧
        ∀ n < s.heap.size, heap.error? n = s.heap.error? n := by
  refine ⟨fun habsent => ?_, fun value hvalue hnull => ?_, Binary.isNearest_ofInt,
    fun a b => Accessor.eq_or_of_finds, fun found target => ⟨Error.display_misread _ _ _, ?_⟩⟩
  · refine accessors_of_absent ?_
    rcases habsent with h | h | h
    · exact .inl (by rw [get?, h]; rfl)
    · exact .inl (by rw [get?, h]; rfl)
    · exact .inr (by rw [get?, h]; rfl)
  · have hget : row.get? name = some value := by
      rw [get?, hvalue]
      rfl
    refine ⟨fun text => ?_, fun x => ?_, fun flag => ?_,
      fun accessor e => accessor.read_eq_error_iff hget hnull⟩
    · rw [text_of_get? hget hnull]
      cases value <;> simp
    · rw [number_of_get? hget hnull]
      cases value <;> simp [eq_comm]
    · rw [boolean_of_get? hget hnull]
      cases value <;> simp
  · have hs : (Session.empty.after steps).Sound := Session.sound_empty.after steps
    exact hs.exists_misread name found target

/-- A text, a number, a name that was not asked for, and an item that is no attachment. -/
theorem accessors_exact_photos :
    let row := Row.ofList "rec1" [("name", some (.string "Alice")), ("age", some (.integer 30)),
      ("photos", some (.array [.string "a.png", .null]))]
    row.text "name" = .ok (some "Alice") ∧ row.number "age" = .ok (some (.ofInt 30)) ∧
      row.boolean "email" = .ok none ∧
      Accessor.attachments.read row "photos" =
        .error (.misread "photos" (.string "a.png") "Attachment") := by
  intro row
  obtain ⟨-, hname, -⟩ := accessors_exact row "name" []
  obtain ⟨-, hage, -⟩ := accessors_exact row "age" []
  obtain ⟨habsent, -⟩ := accessors_exact row "email" []
  obtain ⟨-, hphotos, -⟩ := accessors_exact row "photos" []
  obtain ⟨htext, -⟩ := hname (.string "Alice") rfl nofun
  obtain ⟨-, hnumber, -⟩ := hage (.integer 30) rfl nofun
  obtain ⟨-, -, -, hmisread⟩ := hphotos (.array [.string "a.png", .null]) rfl nofun
  have hitem : Accessor.attachments.Misreads (.array ([] ++ .string "a.png" :: [.null]))
      (.string "a.png") "Attachment" := .item nofun nofun
  exact ⟨(htext _).mpr rfl, (hnumber _).mpr (.inr ⟨30, rfl, rfl⟩), (habsent (.inl rfl)).2.2.1,
    (hmisread .attachments _).mpr ⟨_, _, hitem, rfl⟩⟩

end Row

end RecordQuery
