import RecordQuery.Proofs.Except
import RecordQuery.Query

/-!
# Queries Setting by Setting

A query is configured by settings of three kinds in any order: filters, sort keys and views.
What is sent depends on the settings of each kind alone: the last filter and the last view
count, and all sort keys, in order. Settings of different kinds never disturb one another,
and a kind that was never set leaves no trace in the options, neither a `null` nor an empty
list.

## Main results

* `Query.setAll_eq` — a query after settings, or the first filter that does not compile;
* `ListOptions.encode_eq` — options in JSON;
* `Query.build_setAll` — what a configured query sends, setting by setting.
-/

namespace RecordQuery

/-! ### Settings of one kind -/

namespace Setting

/-- The filter of a setting that is one. -/
def filter? : Setting → Option Filter
  | .filter f => some f
  | _ => none

/-- The sort keys of a setting that adds some. -/
def sorts? : Setting → Option (List SortKey)
  | .orderBy sorts => some sorts
  | _ => none

/-- The view of a setting that is one. -/
def view? : Setting → Option String
  | .view name => some name
  | _ => none

end Setting

/-! ### A query after settings -/

/-- Where every item gives something, the last of a list is what the last item gives. -/
theorem getLast?_of_forall₂ {α : Type} {β : Type} {R : α → β → Prop} {xs : List α} {ys : List β}
    (h : List.Forall₂ R xs ys) :
    Option.Rel R xs.getLast? ys.getLast? := by
  induction h with
  | nil => exact .none
  | @cons x y xs ys hxy _ ih =>
      rw [List.getLast?_cons, List.getLast?_cons]
      cases hx : xs.getLast? <;> cases hy : ys.getLast? <;> rw [hx, hy] at ih
      · exact .some hxy
      · cases ih
      · cases ih
      · exact ih

namespace Query

/-- Makes settings one after the other. The first filter without a formula ends it. -/
def setAll (q : Query) (settings : List Setting) : Except Malformed Query :=
  settings.foldlM set q

/-- **A query after settings.** All filters must have a formula; the last filter and the last
view replace what was there, and all sort keys are added. -/
theorem setAll_eq (q : Query) (settings : List Setting) :
    q.setAll settings =
      ((settings.filterMap Setting.filter?).mapM fun f : Filter => f.compile.result).map
        fun formulas =>
          { q with
            formula := formulas.getLast?.or q.formula
            sorts := q.sorts ++ (settings.filterMap Setting.sorts?).flatten
            viewName := (settings.filterMap Setting.view?).getLast?.or q.viewName } := by
  induction settings generalizing q with
  | nil =>
      simp only [setAll, List.foldlM_nil, List.filterMap_nil, List.mapM_nil, List.flatten_nil,
        List.getLast?_nil, Option.none_or, List.append_nil]
      rfl
  | cons setting rest ih =>
      have hstep : q.setAll (setting :: rest) = (q.set setting).bind fun q' => q'.setAll rest :=
        List.foldlM_cons
      rw [hstep]
      cases setting with
      | orderBy sorts =>
          simp only [set, Except.bind, ih, List.filterMap_cons, Setting.filter?, Setting.sorts?,
            Setting.view?, List.flatten_cons, orderBy, List.append_assoc]
      | view name =>
          simp only [set, Except.bind, ih, List.filterMap_cons, Setting.filter?, Setting.sorts?,
            Setting.view?, view, List.getLast?_cons, Option.or_some, Option.some_or]
      | filter f =>
          simp only [set, List.filterMap_cons, Setting.filter?, Setting.sorts?,
            Setting.view?, List.mapM_cons]
          cases f.compile.result with
          | error reason => rfl
          | ok formula =>
              simp only [Except.map, Except.bind, ih, filter]
              cases (rest.filterMap Setting.filter?).mapM fun f : Filter => f.compile.result with
              | error reason => rfl
              | ok formulas =>
                  simp only [bind, Except.bind, pure, Except.pure, List.getLast?_cons,
                    Option.or_some, Option.some_or]

/-- The order of settings of different kinds does not matter. -/
theorem setAll_congr (q : Query) {settings settings' : List Setting}
    (hfilters : settings.filterMap Setting.filter? = settings'.filterMap Setting.filter?)
    (hsorts : settings.filterMap Setting.sorts? = settings'.filterMap Setting.sorts?)
    (hviews : settings.filterMap Setting.view? = settings'.filterMap Setting.view?) :
    q.setAll settings = q.setAll settings' := by
  rw [setAll_eq, setAll_eq, hfilters, hsorts, hviews]

end Query

/-! ### Options in JSON -/

namespace SortSpec

/-- A sort key in JSON, member by member. -/
theorem encode_eq (spec : SortSpec) :
    Shaped.encode spec =
      .object [("field", .string spec.field), ("direction", .string spec.direction.name)] := rfl

end SortSpec

namespace ListOptions

/-- The members of options in JSON: those that are set, under their keys and in this order. -/
def members (options : ListOptions) : List (String × Json) :=
  (options.filter.map fun formula => ("filterByFormula", Json.string formula)).toList ++
    (options.sort.map fun specs => ("sort", Json.array (specs.map Shaped.encode))).toList ++
    (options.fields.map fun names => ("fields", Json.array (names.map Json.string))).toList ++
    (options.view.map fun name => ("view", Json.string name)).toList

/-- **Options in JSON** are an object of the options that are set. -/
theorem encode_eq (options : ListOptions) : Shaped.encode options = .object options.members := by
  have hsorts : ∀ specs : List SortSpec,
      (Shape.list SortSpec.shape).encode (specs.map Shaped.toValue) =
        .array (specs.map Shaped.encode) := by
    intro specs
    show Json.array ((specs.map Shaped.toValue).map (Shaped.shape SortSpec).encode) = _
    rw [List.map_map]
    rfl
  have hfields : ∀ names : List String,
      (Shape.list .text).encode names = .array (names.map Json.string) := fun _ => rfl
  obtain ⟨filter, sort, fields, view⟩ := options
  have hmembers : Shaped.encode (⟨filter, sort, fields, view⟩ : ListOptions) =
      .object (Presence.optional.write "filterByFormula" Json.string filter ++
        (Presence.optional.write "sort" (Shape.list SortSpec.shape).encode
            (sort.map (List.map Shaped.toValue)) ++
          (Presence.optional.write "fields" (Shape.list .text).encode fields ++
            (Presence.optional.write "view" Json.string view ++ [])))) := rfl
  rw [hmembers, members]
  simp only [Presence.write_optional, List.append_nil, List.append_assoc, Option.map_map,
    Function.comp_def, hsorts, hfields]

/-- The keys of options in JSON are those of the options that are set. -/
theorem keys_members (options : ListOptions) :
    options.members.map Prod.fst =
      (if options.filter = none then [] else ["filterByFormula"]) ++
        (if options.sort = none then [] else ["sort"]) ++
        (if options.fields = none then [] else ["fields"]) ++
        (if options.view = none then [] else ["view"]) := by
  obtain ⟨filter, sort, fields, view⟩ := options
  simp only [members, List.map_append]
  congr 1
  · congr 1
    · congr 1
      · cases filter <;> rfl
      · cases sort <;> rfl
    · cases fields <;> rfl
  · cases view <;> rfl

/-- Whether no list of the options is set but empty. -/
def Filled (options : ListOptions) : Prop := options.sort ≠ some [] ∧ options.fields ≠ some []

/-- Without an empty list among them, options have no empty member in JSON. -/
theorem Filled.member_ne {options : ListOptions} (h : options.Filled) :
    ∀ member ∈ options.members, member.2 ≠ .null ∧ member.2 ≠ .array [] := by
  intro member hmem
  simp only [members, List.mem_append, Option.mem_toList, Option.map_eq_some_iff] at hmem
  rcases hmem with ((⟨formula, -, rfl⟩ | ⟨specs, hspecs, rfl⟩) | ⟨names, hnames, rfl⟩) |
    ⟨name, -, rfl⟩
  · exact ⟨nofun, nofun⟩
  · refine ⟨nofun, fun hempty => h.1 ?_⟩
    rw [hspecs, List.map_eq_nil_iff.mp (Json.array.inj hempty)]
  · refine ⟨nofun, fun hempty => h.2 ?_⟩
    rw [hnames, List.map_eq_nil_iff.mp (Json.array.inj hempty)]
  · exact ⟨nofun, nofun⟩

end ListOptions

/-- Whether a formula is that of a filter, or there is neither. -/
def Filter.Gives : Option Filter → Option String → Prop :=
  Option.Rel fun f formula => f.compile.result = .ok formula

/-- There is a formula when there is a filter. -/
theorem Filter.Gives.eq_none_iff {last : Option Filter} {formula : Option String}
    (h : Gives last formula) : formula = none ↔ last = none := by
  cases h <;> simp

/-- The formula of a text is the text. -/
theorem Filter.Gives.eq_of_text {text : String} {formula : Option String}
    (h : Gives (some (.text text)) formula) : formula = some text := by
  cases h with
  | some hgiven => exact congrArg some (Except.ok.inj hgiven).symm

/-- The formula of an expression is what it compiles to. -/
theorem Filter.Gives.exists_of_expr {e : Expr} {formula : Option String}
    (h : Gives (some (.expr e)) formula) :
    ∃ compiled, e.compile.result = .ok compiled ∧ formula = some compiled := by
  cases h with
  | some hgiven => exact ⟨_, hgiven, rfl⟩

namespace Query

/-- The sort keys that are sent. -/
theorem sort_options (q : Query) :
    q.options.sort = if q.sorts = [] then none else some (q.sorts.map SortKey.spec) := by
  simp only [options]
  cases q.sorts <;> rfl

/-- The fields that are sent. -/
theorem fields_options (q : Query) :
    q.options.fields =
      match q.chosen with
      | none => none
      | some p => if p.fields.entries = [] then none
          else some (p.fields.entries.map fun entry => entry.2.remoteName) := by
  simp only [options]
  cases q.chosen with
  | none => rfl
  | some p =>
      have hnames : p.remoteNames = p.fields.entries.map fun entry => entry.2.remoteName :=
        List.map_map
      by_cases hempty : p.fields.entries = []
      · simp [Projection.isEmpty, NameMap.isEmpty, hempty]
      · simp [Projection.isEmpty, NameMap.isEmpty, hempty, hnames]

/-- No query sends an empty list. -/
theorem filled_options (q : Query) : q.options.Filled := by
  refine ⟨?_, ?_⟩
  · rw [sort_options]
    split
    · exact nofun
    · next hsorts => exact fun h => hsorts (List.map_eq_nil_iff.mp (Option.some.inj h))
  · rw [fields_options]
    split
    · exact nofun
    · split
      · exact nofun
      · next hentries => exact fun h => hentries (List.map_eq_nil_iff.mp (Option.some.inj h))

/-- All settings of a query can be made exactly when every filter has a formula. -/
theorem exists_setAll_iff (q : Query) (settings : List Setting) :
    (∃ q', q.setAll settings = .ok q') ↔
      ∀ f ∈ settings.filterMap Setting.filter?, ∃ formula, f.compile.result = .ok formula := by
  rw [← exists_mapM_eq_ok_iff, setAll_eq]
  cases (settings.filterMap Setting.filter?).mapM fun f : Filter => f.compile.result with
  | error reason => simp [Except.map]
  | ok formulas => simp [Except.map]

/-- The settings of a new query after all that were made. -/
theorem setAll_new {base : Base} {table : Table} {chosen : Option Projection}
    {settings : List Setting} {q : Query} (h : (new base table chosen).setAll settings = .ok q) :
    Filter.Gives (settings.filterMap Setting.filter?).getLast? q.formula ∧
      q = ⟨base, table, chosen, q.formula, (settings.filterMap Setting.sorts?).flatten,
        (settings.filterMap Setting.view?).getLast?⟩ := by
  rw [setAll_eq] at h
  cases hformulas : (settings.filterMap Setting.filter?).mapM
      fun f : Filter => f.compile.result with
  | error reason =>
      rw [hformulas] at h
      cases h
  | ok formulas =>
      rw [hformulas] at h
      cases h
      have hlast := getLast?_of_forall₂ (mapM_eq_ok_iff.mp hformulas)
      simp only [new, Option.or_none, List.nil_append]
      exact ⟨hlast, trivial⟩

/-- **What a query sends, setting by setting.** Settings of a new query can all be made exactly
when every filter has a formula. What is sent then is

* the remote name of the table;
* the formula of the last filter: a text as it is, an expression as it compiles;
* all sort keys in order, each with the remote name of its field, if there is one;
* the last view;
* the remote names of the fields of an explicit projection in its order, if it has some;

and rows are decoded with the explicit projection, or with all fields of the table. In JSON
the options have the keys of those that are set, in this order, and none is `null` or empty.
Settings of the same filters, sort keys and views in any interleaving come to the same. -/
theorem build_setAll (base : Base) (table : Table) (chosen : Option Projection)
    (settings : List Setting) :
    let made := (new base table chosen).setAll settings
    let filters := settings.filterMap Setting.filter?
    let sorts := (settings.filterMap Setting.sorts?).flatten
    let views := settings.filterMap Setting.view?
    ((∃ q, made = .ok q) ↔ ∀ f ∈ filters, ∃ formula, f.compile.result = .ok formula) ∧
      (∀ q, made = .ok q →
        let sent := q.build.options
        let members := sent.members
        q.build.table = table.remoteName ∧
          (filters = [] → sent.filter = none) ∧
          (∀ formula, filters.getLast? = some (.text formula) → sent.filter = some formula) ∧
          (∀ e, filters.getLast? = some (.expr e) →
            ∃ formula, e.compile.result = .ok formula ∧ sent.filter = some formula) ∧
          sent.sort = (if sorts = [] then none
            else some (sorts.map fun key => ⟨key.field.remoteName, key.direction⟩)) ∧
          sent.view = views.getLast? ∧
          sent.fields = (match chosen with
            | none => none
            | some p => if p.fields.entries = [] then none
                else some (p.fields.entries.map fun entry => entry.2.remoteName)) ∧
          q.build.projection = (match chosen with
            | none => ⟨table.fields⟩
            | some p => p) ∧
          Shaped.encode sent = .object members ∧
          members.map Prod.fst =
            (if filters = [] then [] else ["filterByFormula"]) ++
              (if sorts = [] then [] else ["sort"]) ++
              (if sent.fields = none then [] else ["fields"]) ++
              (if views = [] then [] else ["view"]) ∧
          ∀ member ∈ members, member.2 ≠ .null ∧ member.2 ≠ .array []) ∧
      ∀ settings' : List Setting, settings'.filterMap Setting.filter? = filters →
        settings'.filterMap Setting.sorts? = settings.filterMap Setting.sorts? →
        settings'.filterMap Setting.view? = views →
          (new base table chosen).setAll settings' = made := by
  intro made filters sorts views
  refine ⟨exists_setAll_iff _ _, ?_, ?_⟩
  · intro q hq
    obtain ⟨hlast, hsettings⟩ := setAll_new hq
    have hviews : q.viewName = views.getLast? := by rw [hsettings]
    have hsorts : q.sorts = sorts := by rw [hsettings]
    have hchosen : q.chosen = chosen := by rw [hsettings]
    have htable : q.table = table := by rw [hsettings]
    have hfilter : q.options.filter = none ↔ filters = [] :=
      hlast.eq_none_iff.trans List.getLast?_eq_none_iff
    refine ⟨congrArg Table.remoteName htable, hfilter.mpr, ?_, ?_, ?_, hviews, ?_, ?_,
      ListOptions.encode_eq _, ?_, q.filled_options.member_ne⟩
    · intro formula hformula
      exact Filter.Gives.eq_of_text (hformula ▸ hlast)
    · intro e he
      exact Filter.Gives.exists_of_expr (he ▸ hlast)
    · rw [← hsorts]
      exact q.sort_options
    · rw [← hchosen]
      exact q.fields_options
    · rw [← hchosen, ← htable]
      show q.chosen.getD q.table.projection = _
      cases q.chosen <;> rfl
    · have hview : q.options.view = none ↔ views = [] := by
        rw [← List.getLast?_eq_none_iff, ← hviews]
        rfl
      have hsort : q.options.sort = none ↔ sorts = [] := by
        rw [sort_options, hsorts]
        split <;> simp [*]
      simp only [ListOptions.keys_members, build, hfilter, hview, hsort]
      congr
  · intro settings' hfilters hsorts hviews
    exact setAll_congr _ hfilters hsorts hviews

/-- A second filter replaces the first, while sort keys add up around it. -/
theorem build_setAll_replaced :
    let name : Field := ⟨0, .text, "Full Name"⟩
    let age : Field := ⟨1, .number, "Years Old"⟩
    ∃ q, (new ⟨0, none⟩ ⟨"Users", .empty⟩ none).setAll
        [.orderBy [⟨name, .asc⟩], .filter (.text "TRUE()"), .orderBy [⟨age, .desc⟩],
          .filter (.expr (.field name)), .view "Grid"] = .ok q ∧
      q.build.options.filter = some "\x7bFull Name\x7d" ∧
      q.build.options.sort = some [⟨"Full Name", .asc⟩, ⟨"Years Old", .desc⟩] ∧
      q.build.options.fields = none ∧ q.build.options.view = some "Grid" := by
  intro name age
  obtain ⟨hmade, hsent, -⟩ := build_setAll ⟨0, none⟩ ⟨"Users", .empty⟩ none
    [.orderBy [⟨name, .asc⟩], .filter (.text "TRUE()"), .orderBy [⟨age, .desc⟩],
      .filter (.expr (.field name)), .view "Grid"]
  obtain ⟨q, hq⟩ := hmade.mpr (by
    simp only [List.filterMap_cons, List.filterMap_nil, Setting.filter?, List.forall_mem_cons]
    exact ⟨⟨_, rfl⟩, ⟨_, rfl⟩, nofun⟩)
  obtain ⟨-, -, -, hfilter, hsort, hview, hfields, -⟩ := hsent q hq
  obtain ⟨formula, hformula, hset⟩ := hfilter (.field name) rfl
  refine ⟨q, hq, ?_, hsort, hfields, hview⟩
  rw [hset, ← Except.ok.inj hformula]
  rfl

end Query

end RecordQuery
