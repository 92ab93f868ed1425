import RecordQuery.Proofs.Formula.Equality
import RecordQuery.Proofs.Session.Perform
import RecordQuery.Proofs.Table.Project

/-!
# The Ledger of Fields

Every field is made with a stamp of its own. A *ledger* of a session lists the fields that
were made in it, in the order of their stamps, and nothing is under a name that holds a field
which the ledger does not list. The stamp of a field then tells everything about it.

An action *books* the fields that it makes: they are added to the ledger, and what it gives
holds fields of the ledger only. It *enters* expressions if they do so as well, which are those
that come up while it is done. Actions in a row book and enter one after the other.

## Main results

* `Session.Ledger.eq_of_stamp` — fields with one stamp are one field;
* `Action.Enters.bind` — actions in a row;
* `Action.books_lookUp`, `Action.books_stamp`, `Action.books_keep` — where fields come from and
  where they are kept.
-/

namespace RecordQuery

/-! ### The fields in objects -/

/-- The fields that the tables of a schema declare. -/
def Schema.fields (schema : Schema) : List Field :=
  schema.tables.items.flatMap fun table => table.fields.items

/-- The fields that a query holds. -/
def Query.fields (q : Query) : List Field :=
  q.table.fields.items ++ q.chosen.elim [] (·.fields.items) ++ q.sorts.map SortKey.field

/-- The fields that an object holds. -/
def Object.fields : Object → List Field
  | .field f => [f]
  | .table t => t.fields.items
  | .schema found => found.fields
  | .projection p => p.fields.items
  | .sort key => [key.field]
  | .expr e => e.fields
  | .query q => q.fields
  | .descriptor d => d.projection.fields.items
  | .base _ | .row _ | .error _ => []

/-- The fields in what an operation makes. -/
def Product.fields : Product → List Field
  | .object made => made.fields
  | .nothing | .rows _ => []

/-- The fields that an answer shows. -/
def Answer.shown : Answer → List Field
  | .field f _ => [f]
  | .fields a b => [a, b]
  | .table t => t.fields.items
  | .foundField found | .projectedField _ found => found.toList
  | .projection p => p.fields.items
  | .schema found => found.fields
  | .foundTable found => found.elim [] (·.fields.items)
  | .sort key => [key.field]
  | .expr e _ => e.fields
  | .query q => q.fields
  | .descriptor d => d.projection.fields.items
  | .descriptors a b => a.projection.fields.items ++ b.projection.fields.items
  | _ => []

/-- The fields of an answer and of what is made with it. -/
def Action.given (result : Answer × Product) : List Field := result.1.shown ++ result.2.fields

/-- A schema holds no fields but those of its tables. -/
theorem Schema.fields_ofList_subset (tables : List Table) :
    (ofList tables).fields ⊆ tables.flatMap fun table => table.fields.items := by
  intro f hf
  obtain ⟨table, htable, hf⟩ := List.mem_flatMap.mp hf
  obtain ⟨entry, hentry, rfl⟩ := List.mem_map.mp (NameMap.items_ofList_subset _ htable)
  obtain ⟨given, hgiven, rfl⟩ := List.mem_map.mp hentry
  exact List.mem_flatMap.mpr ⟨given, hgiven, hf⟩

/-- A table that is found in a schema holds fields of the schema. -/
theorem Schema.fields_table?_subset {schema : Schema} {remoteName : String} {table : Table}
    (h : schema.table? remoteName = some table) : table.fields.items ⊆ schema.fields :=
  fun _ hf => List.mem_flatMap.mpr ⟨table, NameMap.mem_items_of_get? h, hf⟩

/-- A query is built with fields that it holds. -/
theorem Query.fields_projection_subset (q : Query) : q.projection.fields.items ⊆ q.fields := by
  rw [projection, fields]
  cases q.chosen with
  | none => exact List.subset_append_of_subset_left _ (List.subset_append_left _ _)
  | some p => exact List.subset_append_of_subset_left _ (List.subset_append_right _ _)

/-- The fields in a setting of a query. -/
def Setting.fields : Setting → List Field
  | .orderBy sorts => sorts.map SortKey.field
  | .filter _ | .view _ => []

/-- A setting brings no fields but its own. -/
theorem Query.fields_set_subset {q changed : Query} {setting : Setting}
    (h : q.set setting = .ok changed) : changed.fields ⊆ q.fields ++ setting.fields := by
  cases setting with
  | filter f =>
      obtain ⟨text, rfl⟩ := exists_of_set_filter h
      exact List.subset_append_left _ _
  | orderBy sorts =>
      cases h
      rw [fields, orderBy, List.map_append, ← List.append_assoc]
      exact List.Subset.refl _
  | view name =>
      cases h
      exact List.subset_append_left _ _

/-! ### Ledgers -/

/-- Whether a list holds the fields that were made in a session in the order of their stamps,
and nothing under a name holds other fields. -/
structure Session.Ledger (s : Session) (made : List Field) : Prop where
  stamps : made.map Field.stamp = List.range s.fresh
  entered : ∀ handle o, s.names.get? handle = some o → o.fields ⊆ made

namespace Session.Ledger

variable {s s' : Session} {made : List Field}

/-- **The stamp of a field tells everything about it.** -/
theorem eq_of_stamp (h : s.Ledger made) {f g : Field} (hf : f ∈ made) (hg : g ∈ made)
    (hstamp : f.stamp = g.stamp) : f = g := by
  have hnodup : (made.map Field.stamp).Nodup := h.stamps ▸ List.nodup_range
  exact List.inj_on_of_nodup_map hnodup hf hg hstamp

/-- Where nothing was done, nothing was made. -/
theorem empty : Session.empty.Ledger [] where
  stamps := rfl
  entered := nofun

/-- What touches neither stamps nor names touches no ledger. -/
theorem of_eq (h : s.Ledger made) (hfresh : s'.fresh = s.fresh) (hnames : s'.names = s.names) :
    s'.Ledger made where
  stamps := hfresh ▸ h.stamps
  entered := hnames ▸ h.entered

/-- What is found under a name holds fields that the ledger lists. -/
theorem of_select {α : Type} {select : Object → Option α} {held : α → List Field} {handle : Handle}
    {x : α} (h : s.Ledger made) (hselect : ∀ o x, select o = some x → held x ⊆ o.fields)
    (hx : (s.names.get? handle).bind select = some x) : held x ⊆ made := by
  obtain ⟨o, ho, hselected⟩ := Option.bind_eq_some_iff.mp hx
  exact List.Subset.trans (hselect o x hselected) (h.entered handle o ho)

end Session.Ledger

namespace Action

/-! ### Entering -/

section

variable {α β : Type} {made : List Field} {s : Session} {held : α → List Field}
  {held' : β → List Field} {passing : List Expr}

/-- What is listed after an action, if it is not refused. -/
def onward (a : Action α) (s : Session) (later : Session → List β) : List β :=
  match exec a s with
  | (.ok _, s') => later s'
  | (.error _, _) => []

/-- Whether an action adds the fields that it makes to a ledger, so that the ledger lists the
fields held by what the action gives, and those of passing expressions. -/
def Enters (made : List Field) (s : Session) (a : Action α) (held : α → List Field)
    (passing : List Expr) : Prop :=
  ∃ made', made <+: made' ∧ (exec a s).2.Ledger made' ∧
    (∀ x, (exec a s).1 = .ok x → held x ⊆ made') ∧ ∀ e ∈ passing, e.fields ⊆ made'

/-- Whether an action adds the fields that it makes to a ledger, which then lists the fields
held by what the action gives. -/
def Books (made : List Field) (s : Session) (a : Action α) (held : α → List Field) : Prop :=
  Enters made s a held []

theorem Enters.mono {a : Action α} {passing' : List Expr} (h : Enters made s a held passing)
    (hsubset : passing' ⊆ passing) : Enters made s a held passing' := by
  obtain ⟨made', hprefix, hledger, hheld, hpassing⟩ := h
  exact ⟨made', hprefix, hledger, hheld, fun e he => hpassing e (hsubset he)⟩

/-- Less may be asked of what an action gives. -/
theorem Enters.imp {a : Action α} {held' : α → List Field} (h : Enters made s a held passing)
    (hsubset : ∀ x, held' x ⊆ held x) : Enters made s a held' passing := by
  obtain ⟨made', hprefix, hledger, hheld, hpassing⟩ := h
  exact ⟨made', hprefix, hledger, fun x hx => List.Subset.trans (hsubset x) (hheld x hx), hpassing⟩

/-- **Actions in a row** enter what they make and what comes by in one ledger. -/
theorem Enters.bind {a : Action α} {f : α → Action β} {later : Session → List Expr}
    (ha : Enters made s a held passing)
    (hf : ∀ x s' made', made <+: made' → s'.Ledger made' → held x ⊆ made' →
      Enters made' s' (f x) held' (later s')) :
    Enters made s (a >>= f) held' (passing ++ onward a s later) := by
  obtain ⟨made', hprefix, hledger, hheld, hpassing⟩ := ha
  rw [Enters, exec_bind, onward]
  rcases hexec : exec a s with ⟨refusal | x, s'⟩
  · -- A refused action may have made fields all the same, and they stay in the ledger.
    rw [hexec] at hledger
    refine ⟨made', hprefix, hledger, nofun, fun e he => hpassing e ?_⟩
    rwa [List.append_nil] at he
  · rw [hexec] at hledger hheld
    obtain ⟨made'', hprefix', hledger', hheld', hlater⟩ :=
      hf x s' made' hprefix hledger (hheld x rfl)
    refine ⟨made'', hprefix.trans hprefix', hledger', hheld', fun e he => ?_⟩
    rcases List.mem_append.mp he with he | he
    · exact List.Subset.trans (hpassing e he) hprefix'.subset
    · exact hlater e he

theorem Books.bind {a : Action α} {f : α → Action β} (ha : Books made s a held)
    (hf : ∀ x s' made', made <+: made' → s'.Ledger made' → held x ⊆ made' →
      Books made' s' (f x) held') : Books made s (a >>= f) held' :=
  Enters.mono (Enters.bind ha hf) (List.nil_subset _)

/-- What touches neither stamps nor names books nothing. -/
theorem books_of_eq {a : Action α} (hs : s.Ledger made) (hfresh : (exec a s).2.fresh = s.fresh)
    (hnames : (exec a s).2.names = s.names)
    (hheld : ∀ x, (exec a s).1 = .ok x → held x ⊆ made) : Books made s a held :=
  ⟨made, List.prefix_rfl, hs.of_eq hfresh hnames, hheld, nofun⟩

theorem Books.pure {x : α} (hs : s.Ledger made) (h : held x ⊆ made) :
    Books made s (pure x) held :=
  books_of_eq hs rfl rfl fun _ hx => Except.ok.inj hx ▸ h

theorem Books.throw {refusal : Refusal} (hs : s.Ledger made) :
    Books made s (throw refusal : Action α) held :=
  books_of_eq hs rfl rfl nofun

/-- A refused action may be made up for. -/
theorem Books.tryCatch {a : Action α} {f : Refusal → Action α} (ha : Books made s a held)
    (hf : ∀ refusal s' made', s'.Ledger made' → Books made' s' (f refusal) held) :
    Books made s (tryCatch a f) held := by
  obtain ⟨made', hprefix, hledger, hheld, -⟩ := ha
  rw [Books, Enters, exec_tryCatch]
  rcases hexec : exec a s with ⟨refusal | x, s'⟩
  · rw [hexec] at hledger
    obtain ⟨made'', hprefix', hledger', hheld', -⟩ := hf refusal s' made' hledger
    exact ⟨made'', hprefix.trans hprefix', hledger', hheld', nofun⟩
  · rw [hexec] at hledger hheld
    exact ⟨made', hprefix, hledger, hheld, nofun⟩

/-- Looking at the session books nothing. -/
theorem books_get_bind {f : Session → Action α} (h : Books made s (f s) held) :
    Books made s (get >>= f) held := by
  rwa [Books, Enters, exec_bind, exec_get]

/-- What is looked up holds fields of the object that is found. -/
theorem books_lookUp {select : Object → Option α} (hs : s.Ledger made)
    (hselect : ∀ o x, select o = some x → held x ⊆ o.fields) (handle : Handle) :
    Books made s (lookUp select handle) held := by
  refine books_of_eq hs ?_ ?_ ?_ <;> rw [exec_lookUp]
  intro x hx
  cases hfound : (s.names.get? handle).bind select with
  | none =>
      rw [hfound] at hx
      cases hx
  | some found =>
      rw [hfound] at hx
      cases hx
      exact hs.of_select hselect hfound

/-- A stamp makes a field, whatever else is said about it. -/
theorem books_stamp (hs : s.Ledger made) (type : FieldType) (remoteName : String) :
    Books made s stamp fun n => [⟨n, type, remoteName⟩] := by
  refine ⟨made ++ [⟨s.fresh, type, remoteName⟩], List.prefix_append _ _, ⟨?_, ?_⟩, ?_, nofun⟩
  · rw [List.map_append, hs.stamps]
    exact List.range_succ.symm
  · exact fun handle o ho => List.subset_append_of_subset_left _ (hs.entered handle o ho)
  · rintro x hx
    cases hx
    exact List.subset_append_right _ _

theorem books_report (hs : s.Ledger made) (events : List Event) :
    Books made s (report events) fun _ => [] :=
  books_of_eq hs rfl rfl fun _ _ => List.nil_subset _

/-- An object may be kept if the ledger lists its fields. -/
theorem books_keep {handle : Handle} {o : Object} (hs : s.Ledger made) (h : o.fields ⊆ made) :
    Books made s (keep handle o) fun _ => [] := by
  refine ⟨made, List.prefix_rfl, ⟨hs.stamps, fun handle' o' ho' => ?_⟩,
    fun _ _ => List.nil_subset _, nofun⟩
  simp only [keep, exec_modify, NameMap.get?_insert] at ho'
  split at ho'
  · exact Option.some.inj ho' ▸ h
  · exact hs.entered handle' o' ho'

theorem books_release (hs : s.Ledger made) (handle : Handle) :
    Books made s (release handle) fun _ => [] := by
  refine ⟨made, List.prefix_rfl, ⟨hs.stamps, fun handle' o' ho' => ?_⟩,
    fun _ _ => List.nil_subset _, nofun⟩
  simp only [exec_release, Session.without, NameMap.get?_erase] at ho'
  split at ho'
  · cases ho'
  · exact hs.entered handle' o' ho'

theorem books_ofExcept {result : Except Error α} (hs : s.Ledger made)
    (h : ∀ x, result = .ok x → held x ⊆ made) : Books made s (ofExcept result) held := by
  cases result with
  | ok value => exact .pure hs (h value rfl)
  | error e => exact .throw hs

theorem books_errorOf (hs : s.Ledger made) (n : Nat) : Books made s (errorOf n) fun _ => [] := by
  refine books_get_bind ?_
  cases s.heap.error? n with
  | none => exact .throw hs
  | some e => exact .pure hs (List.nil_subset _)

/-- Actions of one kind for every item of a list. -/
theorem books_mapM {f : β → Action α}
    (h : ∀ x s made, s.Ledger made → Books made s (f x) held) (hs : s.Ledger made)
    (xs : List β) : Books made s (xs.mapM f) fun ys => ys.flatMap held := by
  induction xs generalizing s made with
  | nil => exact .pure hs (List.nil_subset _)
  | cons x xs ih =>
      rw [List.mapM_cons]
      refine (h x s made hs).bind fun y s₁ made₁ _ hs₁ hy => ?_
      refine (ih hs₁).bind fun ys s₂ made₂ hprefix hs₂ hys => .pure hs₂ ?_
      exact List.append_subset.mpr ⟨List.Subset.trans hy hprefix.subset, hys⟩

/-! ### Looking up -/

theorem books_field (hs : s.Ledger made) (handle : Handle) :
    Books made s (field handle) fun f => [f] :=
  books_lookUp hs (by rintro ⟨⟩ x ⟨⟩; exact List.Subset.refl _) handle

theorem books_table (hs : s.Ledger made) (handle : Handle) :
    Books made s (table handle) fun found => found.fields.items :=
  books_lookUp hs (by rintro ⟨⟩ x ⟨⟩; exact List.Subset.refl _) handle

theorem books_schema (hs : s.Ledger made) (handle : Handle) :
    Books made s (schema handle) Schema.fields :=
  books_lookUp hs (by rintro ⟨⟩ x ⟨⟩; exact List.Subset.refl _) handle

theorem books_projection (hs : s.Ledger made) (handle : Handle) :
    Books made s (projection handle) fun p => p.fields.items :=
  books_lookUp hs (by rintro ⟨⟩ x ⟨⟩; exact List.Subset.refl _) handle

theorem books_sort (hs : s.Ledger made) (handle : Handle) :
    Books made s (sort handle) fun key => [key.field] :=
  books_lookUp hs (by rintro ⟨⟩ x ⟨⟩; exact List.Subset.refl _) handle

theorem books_expr (hs : s.Ledger made) (handle : Handle) :
    Books made s (expr handle) Expr.fields :=
  books_lookUp hs (by rintro ⟨⟩ x ⟨⟩; exact List.Subset.refl _) handle

theorem books_query (hs : s.Ledger made) (handle : Handle) :
    Books made s (query handle) Query.fields :=
  books_lookUp hs (by rintro ⟨⟩ x ⟨⟩; exact List.Subset.refl _) handle

theorem books_descriptor (hs : s.Ledger made) (handle : Handle) :
    Books made s (descriptor handle) fun d => d.projection.fields.items :=
  books_lookUp hs (by rintro ⟨⟩ x ⟨⟩; exact List.Subset.refl _) handle

/-- Bases, rows and errors hold no fields. -/
theorem books_find {select : Object → Option α} (hs : s.Ledger made) (handle : Handle) :
    Books made s (lookUp select handle) fun _ => [] :=
  books_lookUp hs (fun _ _ _ => List.nil_subset _) handle

/-- Fields that are looked up under logical names. -/
theorem books_fields (hs : s.Ledger made) (named : List (String × Handle)) :
    Books made s (fields named) fun entries => entries.map Prod.snd := by
  have hentries : Books made s (fields named) fun entries => entries.flatMap fun entry =>
      [entry.2] := by
    refine books_mapM (fun entry s made hs => ?_) hs named
    exact (books_field hs entry.2).bind fun f _ _ _ hs' hf => .pure hs' hf
  refine hentries.imp fun entries => ?_
  rw [List.map_eq_flatMap]
  exact List.Subset.refl _

/-- Compiling gives a text. -/
theorem books_compile (hs : s.Ledger made) (e : Expr) :
    Books made s (compile e) fun _ => [] := by
  refine (books_report hs _).bind fun _ _ _ _ hs' _ => ?_
  cases e.compile.result with
  | ok text => exact .pure hs' (List.nil_subset _)
  | error reason => exact .throw hs'

end

end Action

end RecordQuery
