import RecordQuery.Proofs.Session.Lineage

/-!
# Lineages that Are Right

A lineage *explains* something when whatever stands at a path there was made in the making that
the lineage has for the path. An action *tracks* the lineages under names when these still
explain what is under the names afterwards; actions in a row track them one after the other.

What a recipe builds has the lineage that the recipe tells, once the fields that are made on the
way are counted from the right place.

## Main results

* `Lineage.explains_projection_iff`, `Lineage.explains_schema_iff`, `Lineage.explains_node` —
  a whole is explained part by part;
* `Lineage.ExplainsAll.ofList` — parts that replace one another;
* `Action.Tracks.bind` — actions in a row;
* `Action.tracks_build` — recipes build expressions of their lineages.
-/

namespace RecordQuery

open RecordQuery.Action

/-! ### Lineages that are right -/

/-- Whether every field at a path was made in the making that a lineage has there. -/
def Lineage.Explains (made : Field → Making → Prop) (lineage : Lineage)
    (fieldAt : Path → Option Field) : Prop :=
  ∀ path f, fieldAt path = some f → ∃ making, lineage path = some making ∧ made f making

namespace Lineage

variable {made : Field → Making → Prop} {l whole inner : Lineage} {fieldAt : Path → Option Field}

/-- What gives no fields out needs no explanation. -/
theorem Explains.of_none (h : ∀ path, fieldAt path = none) : l.Explains made fieldAt := by
  intro path f hf
  rw [h] at hf
  cases hf

/-- A new field is explained by its making. -/
theorem Explains.new {f : Field} {making : Making} (h : made f making) :
    (Lineage.new making).Explains made f.fieldAt := by
  rintro (_ | ⟨key, path⟩) g hg
  · cases hg
    exact ⟨making, rfl, h⟩
  · cases hg

/-- Whether what is in a map is explained name by name. -/
def ExplainsAll {α : Type} (made : Field → Making → Prop) (l : Lineage) (key : String → Key)
    (fieldAt : α → Path → Option Field) (m : NameMap α) : Prop :=
  ∀ name x, m.get? name = some x → (l.part (key name)).Explains made (fieldAt x)

/-- A projection is explained name by name. -/
theorem explains_projection_iff {p : Projection} :
    l.Explains made p.fieldAt ↔ l.ExplainsAll made .entry Field.fieldAt p.fields := by
  constructor
  · rintro h name f hf (_ | ⟨key, path⟩) g hg
    · cases hg
      exact h [.entry name] f hf
    · cases hg
  · intro h path f hf
    rw [Projection.fieldAt.eq_def] at hf
    split at hf
    · exact h _ f hf [] f rfl
    · cases hf

/-- A schema is explained table by table. -/
theorem explains_schema_iff {schema : Schema} :
    l.Explains made schema.fieldAt ↔ l.ExplainsAll made .table Table.fieldAt schema.tables := by
  constructor
  · intro h remoteName table htable path f hf
    have htable' : schema.table? remoteName = some table := htable
    refine h (.table remoteName :: path) f ?_
    rw [Schema.fieldAt, htable']
    exact hf
  · intro h path f hf
    rw [Schema.fieldAt.eq_def] at hf
    split at hf
    · obtain ⟨table, htable, hf⟩ := Option.bind_eq_some_iff.mp hf
      exact h _ table htable _ f hf
    · cases hf

section

variable {α : Type} {key : String → Key} {fieldsOf : α → Path → Option Field} {m : NameMap α}

/-- An item that is put in is explained by the part that is put in. -/
theorem ExplainsAll.insert (hkey : Function.Injective key)
    (hm : whole.ExplainsAll made key fieldsOf m) {name : String} {x : α}
    (hx : inner.Explains made (fieldsOf x)) :
    (whole.put (key name) inner).ExplainsAll made key fieldsOf (m.insert name x) := by
  intro other y hy path f hf
  rw [NameMap.get?_insert] at hy
  rw [part, put]
  split at hy
  · next heq =>
    cases hy
    rw [if_pos (congrArg key heq)]
    exact hx path f hf
  · next hne =>
    rw [if_neg fun heq => hne (hkey heq)]
    exact hm other y hy path f hf

/-- Items that are put in one after the other are explained by their parts. -/
theorem ExplainsAll.ofList (hkey : Function.Injective key) {entries : List (String × α)}
    {parts : List (Key × Lineage)}
    (h : List.Forall₂ (fun entry part =>
      part.1 = key entry.1 ∧ part.2.Explains made (fieldsOf entry.2)) entries parts) :
    (Lineage.ofParts parts).ExplainsAll made key fieldsOf (.ofList entries) := by
  have hall : ∀ (whole : Lineage) (m : NameMap α), whole.ExplainsAll made key fieldsOf m →
      (parts.foldl (fun whole part => whole.put part.1 part.2) whole).ExplainsAll made key fieldsOf
        (m.insertAll entries) := by
    induction h with
    | nil => exact fun _ _ hm => hm
    | @cons entry part _ _ hentry _ ih =>
        obtain ⟨hkeyed, hexplains⟩ := hentry
        intro whole m hm
        have hput : (whole.put part.1 part.2).ExplainsAll made key fieldsOf
            (m.insert entry.1 entry.2) := hkeyed ▸ hm.insert hkey hexplains
        exact ih _ _ hput
  exact hall .nil .empty nofun

end

/-- A node is explained operand by operand. -/
theorem explains_node {e : Expr} {parts : List Lineage} (hnode : e.fieldAt [] = none)
    (h : List.Forall₂ (fun e l => Lineage.Explains made l e.fieldAt) e.operands parts) :
    (ofOperands parts).Explains made e.fieldAt := by
  intro path f hf
  obtain ⟨position, inner, operand, rfl, hoperand, hf⟩ := Expr.exists_operand hnode hf
  obtain ⟨hlt, rfl⟩ := List.getElem?_eq_some_iff.mp hoperand
  have hlt' : position < parts.length := h.length_eq ▸ hlt
  obtain ⟨making, hmaking, hmade⟩ := h.get hlt hlt' inner f hf
  refine ⟨making, ?_, hmade⟩
  rw [ofOperands, List.getElem?_eq_getElem hlt']
  exact hmaking

/-- Nothing has to be explained about literals and formulas. -/
theorem explains_leaf {e : Expr} (hnode : e.fieldAt [] = none) (hleaf : e.operands = []) :
    l.Explains made e.fieldAt := by
  intro path f hf
  obtain ⟨position, inner, operand, rfl, hoperand, -⟩ := Expr.exists_operand hnode hf
  rw [hleaf] at hoperand
  cases hoperand

end Lineage

/-- Whether the lineages under names explain what is there. -/
def Session.Explained (made : Field → Making → Prop) (s : Session) (held : Handle → Lineage) :
    Prop :=
  ∀ handle o, s.names.get? handle = some o → (held handle).Explains made o.fieldAt

/-- What is put under a name is explained by the lineage that is kept with it. -/
theorem Session.Explained.insert {made : Field → Making → Prop} {s s' : Session}
    {held : Handle → Lineage} {handle : Handle} {o : Object} {l : Lineage}
    (hs : s.Explained made held) (hnames : s'.names = s.names.insert handle o)
    (ho : l.Explains made o.fieldAt) : s'.Explained made (Lineage.keep held [handle] l) := by
  intro other o' ho'
  rw [hnames, NameMap.get?_insert] at ho'
  rw [Lineage.keep]
  split at ho'
  · next heq =>
    cases ho'
    rw [if_pos (List.mem_singleton.mpr heq)]
    exact ho
  · next hne =>
    rw [if_neg fun hmem => hne (List.mem_singleton.mp hmem)]
    exact hs other o' ho'

namespace Action

/-! ### Tracking lineages -/

section

variable {α β : Type} {made : Field → Making → Prop} {held : Handle → Lineage} {s : Session}
  {P : α → Session → Prop} {Q : β → Session → Prop}

/-- Whether the lineages under names stay right, and what an action gives is as expected. -/
def Tracks (made : Field → Making → Prop) (held : Handle → Lineage) (s : Session) (a : Action α)
    (P : α → Session → Prop) : Prop :=
  (exec a s).2.Explained made held ∧ ∀ x, (exec a s).1 = .ok x → P x (exec a s).2

/-- What touches no name leaves the lineages under names alone. -/
theorem tracks_of_names {a : Action α} (hs : s.Explained made held)
    (hnames : (exec a s).2.names = s.names)
    (hgives : ∀ x, (exec a s).1 = .ok x → P x (exec a s).2) : Tracks made held s a P := by
  refine ⟨fun handle o ho => hs handle o ?_, hgives⟩
  rwa [hnames] at ho

theorem Tracks.pure {x : α} (hs : s.Explained made held) (h : P x s) :
    Tracks made held s (pure x) P :=
  tracks_of_names hs rfl fun _ hx => Except.ok.inj hx ▸ h

theorem Tracks.throw {refusal : Refusal} (hs : s.Explained made held) :
    Tracks made held s (throw refusal : Action α) P :=
  tracks_of_names hs rfl nofun

/-- Less may be asked of what an action gives. -/
theorem Tracks.imp {a : Action α} {P' : α → Session → Prop} (h : Tracks made held s a P)
    (hP : ∀ x s', P x s' → P' x s') : Tracks made held s a P' :=
  ⟨h.1, fun x hx => hP x _ (h.2 x hx)⟩

/-- **Actions in a row** leave the lineages under names right. -/
theorem Tracks.bind {a : Action α} {f : α → Action β} (ha : Tracks made held s a P)
    (hf : ∀ x s', s'.Explained made held → P x s' → Tracks made held s' (f x) Q) :
    Tracks made held s (a >>= f) Q := by
  obtain ⟨hexplained, hgives⟩ := ha
  rw [Tracks, exec_bind]
  rcases hexec : exec a s with ⟨refusal | x, s'⟩
  · rw [hexec] at hexplained
    exact ⟨hexplained, nofun⟩
  · rw [hexec] at hexplained hgives
    exact hf x s' hexplained (hgives x rfl)

/-- A refused action may be made up for. -/
theorem Tracks.tryCatch {a : Action α} {f : Refusal → Action α} (ha : Tracks made held s a P)
    (hf : ∀ refusal s', s'.Explained made held → Tracks made held s' (f refusal) P) :
    Tracks made held s (tryCatch a f) P := by
  obtain ⟨hexplained, hgives⟩ := ha
  rw [Tracks, exec_tryCatch]
  rcases hexec : exec a s with ⟨refusal | x, s'⟩
  · rw [hexec] at hexplained
    exact hf refusal s' hexplained
  · rw [hexec] at hexplained hgives
    exact ⟨hexplained, hgives⟩

/-- Looking at the session changes nothing. -/
theorem tracks_get_bind {f : Session → Action α} (h : Tracks made held s (f s) P) :
    Tracks made held s (get >>= f) P := by
  rwa [Tracks, exec_bind, exec_get]

/-- What is looked up is under the name. -/
theorem tracks_lookUp {select : Object → Option α} (hs : s.Explained made held)
    (handle : Handle) :
    Tracks made held s (lookUp select handle) fun x s' =>
      s' = s ∧ (s.names.get? handle).bind select = some x := by
  rw [Tracks, exec_lookUp]
  refine ⟨hs, fun x hx => ⟨rfl, ?_⟩⟩
  cases hfound : (s.names.get? handle).bind select with
  | none =>
      rw [hfound] at hx
      cases hx
  | some found =>
      rw [hfound] at hx
      exact congrArg some (Except.ok.inj hx)

/-- What changes no session may be done for every item of a list. -/
theorem tracks_mapM {f : β → Action α} {R : β → α → Prop} (hs : s.Explained made held)
    (h : ∀ x, Tracks made held s (f x) fun y s' => s' = s ∧ R x y) (xs : List β) :
    Tracks made held s (xs.mapM f) fun ys s' => s' = s ∧ List.Forall₂ R xs ys := by
  induction xs with
  | nil => exact .pure hs ⟨rfl, .nil⟩
  | cons x xs ih =>
      rw [List.mapM_cons]
      refine (h x).bind ?_
      rintro y s' - ⟨rfl, hy⟩
      refine ih.bind ?_
      rintro ys s'' - ⟨rfl, hys⟩
      exact .pure hs ⟨rfl, .cons hy hys⟩

end

/-! ### Looking up -/

section

variable {α : Type} {made : Field → Making → Prop} {held : Handle → Lineage} {s : Session}

/-- What is found under a name is explained by the lineage of the name. -/
theorem tracks_held {select : Object → Option α} (whole : α → Object)
    (hselect : ∀ o x, select o = some x → o = whole x) (hs : s.Explained made held)
    (handle : Handle) :
    Tracks made held s (lookUp select handle) fun x s' =>
      s' = s ∧ (held handle).Explains made (whole x).fieldAt := by
  refine (tracks_lookUp hs handle).imp ?_
  rintro x s' ⟨rfl, hfound⟩
  obtain ⟨o, ho, hselected⟩ := Option.bind_eq_some_iff.mp hfound
  exact ⟨rfl, hselect o x hselected ▸ hs handle o ho⟩

theorem tracks_field (hs : s.Explained made held) (handle : Handle) :
    Tracks made held s (field handle) fun f s' =>
      s' = s ∧ (held handle).Explains made f.fieldAt :=
  tracks_held .field (by rintro ⟨⟩ x ⟨⟩; rfl) hs handle

theorem tracks_table (hs : s.Explained made held) (handle : Handle) :
    Tracks made held s (table handle) fun found s' =>
      s' = s ∧ (held handle).Explains made found.fieldAt :=
  tracks_held .table (by rintro ⟨⟩ x ⟨⟩; rfl) hs handle

theorem tracks_schema (hs : s.Explained made held) (handle : Handle) :
    Tracks made held s (schema handle) fun found s' =>
      s' = s ∧ (held handle).Explains made found.fieldAt :=
  tracks_held .schema (by rintro ⟨⟩ x ⟨⟩; rfl) hs handle

theorem tracks_projection (hs : s.Explained made held) (handle : Handle) :
    Tracks made held s (projection handle) fun p s' =>
      s' = s ∧ (held handle).Explains made p.fieldAt :=
  tracks_held .projection (by rintro ⟨⟩ x ⟨⟩; rfl) hs handle

theorem tracks_expr (hs : s.Explained made held) (handle : Handle) :
    Tracks made held s (expr handle) fun e s' =>
      s' = s ∧ (held handle).Explains made e.fieldAt :=
  tracks_held .expr (by rintro ⟨⟩ x ⟨⟩; rfl) hs handle

/-- Fields that are looked up under logical names are explained by the parts under these names. -/
theorem tracks_fields (hs : s.Explained made held) (named : List (String × Handle)) :
    Tracks made held s (fields named) fun entries s' =>
      s' = s ∧ List.Forall₂ (fun (entry : String × Field) (part : Key × Lineage) =>
        part.1 = .entry entry.1 ∧ part.2.Explains made entry.2.fieldAt) entries
        (named.map fun entry => (.entry entry.1, held entry.2)) := by
  have hentries := tracks_mapM (f := fun entry : String × Handle =>
      (return (entry.1, ← field entry.2) : Action (String × Field)))
    (R := fun entry x => x.1 = entry.1 ∧ (held entry.2).Explains made x.2.fieldAt) hs
    (fun entry => (tracks_field hs entry.2).bind (by
      rintro f s' - ⟨rfl, hf⟩
      exact .pure hs ⟨rfl, rfl, hf⟩)) named
  refine hentries.imp ?_
  rintro entries s' ⟨rfl, hall⟩
  refine ⟨rfl, List.forall₂_map_right_iff.mpr (hall.flip.imp ?_)⟩
  rintro x entry ⟨hname, hf⟩
  exact ⟨congrArg Key.entry hname.symm, hf⟩

end

/-! ### Following recipes -/

/-- Whether the fields with the stamps from `start + first` to before `start + last` are those that
are made in a step at the places from `first` to before `last`. -/
def Makes (made : Field → Making → Prop) (step start first last : Nat) : Prop :=
  ∀ place, first ≤ place → place < last → ∀ f : Field, f.stamp = start + place →
    made f ⟨step, place⟩

theorem Makes.mono {made : Field → Making → Prop} {step start first last first' last' : Nat}
    (h : Makes made step start first last) (hfirst : first ≤ first') (hlast : last' ≤ last) :
    Makes made step start first' last' :=
  fun place hle hlt => h place (Nat.le_trans hfirst hle) (Nat.lt_of_lt_of_le hlt hlast)

section

variable {made : Field → Making → Prop} {held : Handle → Lineage} {s : Session}

/-- Compiling makes no field. -/
theorem tracks_compile (hs : s.Explained made held) (e : Expr) :
    Tracks made held s (compile e) fun _ s' => s'.fresh = s.fresh := by
  have hreport : Tracks made held s (report e.compile.events) fun _ s' => s'.fresh = s.fresh :=
    tracks_of_names hs rfl fun _ _ => rfl
  refine hreport.bind fun _ s' hs' hfresh => ?_
  cases e.compile.result with
  | ok text => exact .pure hs' hfresh
  | error reason => exact .throw hs'

/-- A helper puts its operands under a node. -/
theorem explains_build? {helper : Helper} {operands : List Expr} {e : Expr} {parts : List Lineage}
    (hbuild : helper.build? operands = some e)
    (h : List.Forall₂ (fun e l => Lineage.Explains made l e.fieldAt) operands parts) :
    (Lineage.ofOperands parts).Explains made e.fieldAt := by
  have hnode : e.fieldAt [] = none ∧ e.operands = operands := by
    cases helper with
    | comparison op =>
        obtain ⟨lhs, rhs, rfl, rfl⟩ := Helper.build?_comparison_eq_some_iff.mp hbuild
        exact ⟨rfl, rfl⟩
    | function fn =>
        obtain ⟨-, rfl⟩ := Helper.build?_function_eq_some_iff.mp hbuild
        exact ⟨rfl, rfl⟩
  exact Lineage.explains_node hnode.1 (hnode.2 ▸ h)

theorem tracks_apply (hs : s.Explained made held) (helper : Helper) (operands : List Expr) :
    Tracks made held s (Recipe.apply helper operands) fun e s' =>
      s' = s ∧ helper.build? operands = some e := by
  rw [Recipe.apply]
  cases helper.build? operands with
  | none => exact .throw hs
  | some e => exact .pure hs ⟨rfl, rfl⟩

theorem tracks_applyTimes (hs : s.Explained made held) (helper : Helper) (count : Nat)
    (operand : Expr) :
    Tracks made held s (Recipe.applyTimes helper count operand) fun e s' =>
      s' = s ∧ ∀ l : Lineage, l.Explains made operand.fieldAt →
        Lineage.Explains made ((fun inner => .ofOperands [inner])^[count] l) e.fieldAt := by
  induction count generalizing operand with
  | zero => exact .pure hs ⟨rfl, fun _ h => h⟩
  | succ count ih =>
      refine (tracks_apply hs helper [operand]).bind ?_
      rintro node s' - ⟨rfl, hnode⟩
      refine (ih node).imp ?_
      rintro e s' ⟨rfl, hall⟩
      exact ⟨rfl, fun l hl => hall _ (explains_build? hnode (.cons hl .nil))⟩

theorem tracks_applyAll (hs : s.Explained made held) (helper : Helper) (first : Expr)
    (others : List Expr) :
    Tracks made held s
      (others.foldlM (fun acc other => Recipe.apply helper [acc, other]) first) fun e s' =>
      s' = s ∧ ∀ (l : Lineage) (parts : List Lineage), l.Explains made first.fieldAt →
        List.Forall₂ (fun e l => Lineage.Explains made l e.fieldAt) others parts →
        Lineage.Explains made (parts.foldl (fun acc other => .ofOperands [acc, other]) l)
          e.fieldAt := by
  induction others generalizing first with
  | nil =>
      refine .pure hs ⟨rfl, fun l parts hl hparts => ?_⟩
      cases hparts
      exact hl
  | cons other others ih =>
      rw [List.foldlM_cons]
      refine (tracks_apply hs helper [first, other]).bind ?_
      rintro node s' - ⟨rfl, hnode⟩
      refine (ih node).imp ?_
      rintro e s' ⟨rfl, hall⟩
      refine ⟨rfl, fun l parts hl hparts => ?_⟩
      obtain ⟨part, rest, hother, hothers, rfl⟩ := List.forall₂_cons_left_iff.mp hparts
      exact hall _ rest (explains_build? hnode (.cons hl (.cons hother .nil))) hothers

variable (step : Nat) {start : Nat}

mutual

/-- **A recipe** that is followed to its end makes as many fields as it says, and builds an
expression with fields of its lineage. -/
theorem tracks_build (recipe : Recipe) {s : Session} (hs : s.Explained made held) {place : Nat}
    (hplace : s.fresh = start + place) :
    Tracks made held s recipe.build fun e s' =>
      s'.fresh = start + (place + recipe.makings) ∧
        (Makes made step start place (place + recipe.makings) →
          (recipe.lineage held step place).Explains made e.fieldAt) := by
  cases recipe with
  | newField remoteName =>
      have hstamp : Tracks made held s stamp fun n s' => n = s.fresh ∧ s'.fresh = s.fresh + 1 := by
        refine tracks_of_names hs rfl fun n hn => ⟨?_, rfl⟩
        exact (Except.ok.inj hn).symm
      refine hstamp.bind ?_
      rintro n s' hs' ⟨rfl, hfresh⟩
      refine .pure hs' ⟨by rw [hfresh, hplace]; rfl, fun hmakes => ?_⟩
      rw [Expr.fieldAt_field]
      exact .new (hmakes place (Nat.le_refl _) (Nat.lt_succ_self _) _ hplace)
  | field handle =>
      refine (tracks_field hs handle).bind ?_
      rintro f s' - ⟨rfl, hf⟩
      exact .pure hs ⟨hplace, fun _ => Expr.fieldAt_field f ▸ hf⟩
  | expr handle =>
      refine (tracks_expr hs handle).imp ?_
      rintro e s' ⟨rfl, he⟩
      exact ⟨hplace, fun _ => he⟩
  | literal value | formula text =>
      exact .pure hs ⟨hplace, fun _ => Lineage.explains_leaf rfl rfl⟩
  | compiled part =>
      refine (tracks_build part hs hplace).bind ?_
      rintro e s₁ hs₁ ⟨hfresh₁, -⟩
      refine (tracks_compile hs₁ e).bind ?_
      rintro text s₂ hs₂ hfresh₂
      exact .pure hs₂ ⟨hfresh₂.trans hfresh₁, fun _ => Lineage.explains_leaf rfl rfl⟩
  | compare lhs op rhs =>
      refine (tracks_build lhs hs hplace).bind ?_
      rintro l s₁ hs₁ ⟨hfresh₁, hl⟩
      refine (tracks_build rhs hs₁ hfresh₁).bind ?_
      rintro r s₂ hs₂ ⟨hfresh₂, hr⟩
      refine .pure hs₂ ⟨by rw [hfresh₂, Recipe.makings, Nat.add_assoc place], fun hmakes => ?_⟩
      rw [Recipe.makings, ← Nat.add_assoc] at hmakes
      have hleft := hl (hmakes.mono (Nat.le_refl _) (Nat.le_add_right _ _))
      have hright := hr (hmakes.mono (Nat.le_add_right _ _) (Nat.le_refl _))
      exact Lineage.explains_node rfl (.cons hleft (.cons hright .nil))
  | call fn args =>
      refine (tracks_buildAll args hs hplace).bind ?_
      rintro es s' hs' ⟨hfresh, hes⟩
      exact .pure hs' ⟨hfresh, fun hmakes => Lineage.explains_node rfl (hes hmakes)⟩
  | helper h operands =>
      refine (tracks_buildAll operands hs hplace).bind ?_
      rintro es s₁ hs₁ ⟨hfresh, hes⟩
      refine (tracks_apply hs₁ h es).imp ?_
      rintro e s' ⟨rfl, hbuild⟩
      exact ⟨hfresh, fun hmakes => explains_build? hbuild (hes hmakes)⟩
  | nest h count part =>
      refine (tracks_build part hs hplace).bind ?_
      rintro inner s₁ hs₁ ⟨hfresh, hinner⟩
      refine (tracks_applyTimes hs₁ h count inner).imp ?_
      rintro e s' ⟨rfl, hall⟩
      exact ⟨hfresh, fun hmakes => hall _ (hinner hmakes)⟩
  | fold h first others =>
      refine (tracks_build first hs hplace).bind ?_
      rintro acc s₁ hs₁ ⟨hfresh₁, hacc⟩
      refine (tracks_buildAll others hs₁ hfresh₁).bind ?_
      rintro es s₂ hs₂ ⟨hfresh₂, hes⟩
      refine (tracks_applyAll hs₂ h acc es).imp ?_
      rintro e s' ⟨rfl, hall⟩
      rw [Recipe.makings, ← Nat.add_assoc place]
      refine ⟨hfresh₂, fun hmakes => hall _ _ ?_ ?_⟩
      · exact hacc (hmakes.mono (Nat.le_refl _) (Nat.le_add_right _ _))
      · exact hes (hmakes.mono (Nat.le_add_right _ _) (Nat.le_refl _))

/-- Recipes that are followed one after the other. -/
theorem tracks_buildAll (recipes : List Recipe) {s : Session} (hs : s.Explained made held)
    {place : Nat} (hplace : s.fresh = start + place) :
    Tracks made held s (Recipe.buildAll recipes) fun es s' =>
      s'.fresh = start + (place + Recipe.makingsAll recipes) ∧
        (Makes made step start place (place + Recipe.makingsAll recipes) →
          List.Forall₂ (fun e l => Lineage.Explains made l e.fieldAt) es
            (Recipe.lineageAll held step place recipes)) := by
  cases recipes with
  | nil => exact .pure hs ⟨hplace, fun _ => .nil⟩
  | cons recipe rest =>
      refine (tracks_build recipe hs hplace).bind ?_
      rintro e s₁ hs₁ ⟨hfresh₁, he⟩
      refine (tracks_buildAll rest hs₁ hfresh₁).bind ?_
      rintro es s₂ hs₂ ⟨hfresh₂, hes⟩
      refine .pure hs₂ ⟨by rw [hfresh₂, Recipe.makingsAll, Nat.add_assoc place], fun hmakes => ?_⟩
      rw [Recipe.makingsAll, ← Nat.add_assoc] at hmakes
      have hfirst := he (hmakes.mono (Nat.le_refl _) (Nat.le_add_right _ _))
      exact .cons hfirst (hes (hmakes.mono (Nat.le_add_right _ _) (Nat.le_refl _)))

end

/-- A recipe leaves the lineages under names alone. -/
theorem tracks_recipe (recipe : Recipe) (hs : s.Explained made held) :
    Tracks made held s recipe.build fun _ _ => True :=
  (tracks_build 0 recipe hs (Nat.add_zero s.fresh).symm).imp fun _ _ _ => trivial

end

end Action

end RecordQuery
