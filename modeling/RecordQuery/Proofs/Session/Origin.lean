import RecordQuery.Proofs.Session.Descent

/-!
# One Making, One Field

Lineages stay right over a whole run. Every making of a run has a stamp of its own, whatever the
field is like that is made, so two handles that come up in a run are equal exactly when they go
back to one making.

## Main results

* `Session.Explained.step`, `Session.explained_before` — the lineages of a run are right;
* `Session.Born.making_eq_iff` — a stamp tells its making;
* `Session.same_iff_origin` — equality of handles is one making.
-/

namespace RecordQuery

open RecordQuery.Action

/-! ### Counting -/

/-- Different makings are counted like a set. -/
theorem Field.countDistinct_eq_card (fields : List Field) :
    countDistinct fields = (fields.map stamp).toFinset.card :=
  length_eraseDups _

namespace Session

/-! ### Steps -/

variable {made : Field → Making → Prop} {held : Handle → Lineage} {s : Session}

/-- Keeping hands out no stamps. -/
theorem fresh_keepNamed (name : Option Handle) (product : Product) (s : Session) :
    (exec (keepNamed name product) s).2.fresh = s.fresh := by
  obtain ⟨names, hnames⟩ := exists_names_keepNamed name product s
  rw [hnames]

/-- **A step** keeps the lineages under names right, and its answer has the lineage of its
operation. -/
theorem Explained.step (hs : s.Explained made held) (step : Step) {i : Nat}
    (hmade : ∀ place (f : Field), f.stamp = s.fresh + place →
      f.stamp < (s.step step).2.fresh → made f ⟨i, place⟩) :
    (s.step step).2.Explained made
        (Lineage.keep held (step.keeps (exec (perform step.operation) s.started).1)
          (step.operation.lineage s held i)) ∧
      ∀ answer, (s.step step).1.result = .ok answer →
        (step.operation.lineage s held i).Explains made answer.fieldAt := by
  have hstarted : s.started.Explained made held := hs
  rcases hexec : exec (perform step.operation) s.started with ⟨refusal | ⟨answer, product⟩, s'⟩
  · obtain ⟨hresult, hafter⟩ := step_of_error step hexec
    have hdescends : Descends made held s.started step.operation i := by
      refine descends_perform hstarted step.operation fun place f hf hlt => hmade place f hf ?_
      rw [hexec] at hlt
      rwa [hafter]
    rw [hafter, hresult]
    refine ⟨(Lineage.keep_nil held _).symm ▸ hdescends.refused hexec, fun answer hanswer => ?_⟩
    cases hanswer
  · obtain ⟨hresult, hafter⟩ := step_of_ok step hexec
    have hdescends : Descends made held s.started step.operation i := by
      refine descends_perform hstarted step.operation fun place f hf hlt => hmade place f hf ?_
      rw [hexec] at hlt
      rwa [hafter, fresh_keepNamed]
    obtain ⟨hexplained, hgives⟩ := hdescends.done hexec
    rw [hafter, hresult]
    refine ⟨?_, fun given hgiven => Except.ok.inj hgiven ▸ hgives.1⟩
    have hkept := explained_keepNamed hexplained hgives (step.name.or step.operation.defaultName)
    cases product with
    | nothing | rows decoded => exact hkept
    | object o =>
        rw [Lineage.keep_append] at hkept
        exact hkept

/-! ### Runs -/

/-- One run of steps after the other. -/
theorem after_append (s : Session) (earlier later : List Step) :
    s.after (earlier ++ later) = (s.after earlier).after later := by
  induction earlier generalizing s with
  | nil => rfl
  | cons first rest ih => exact ih _

variable {steps : List Step} {i j : Nat} {f g : Field} {m n : Making}

/-- A step leads from the session before it to the one before the next. -/
theorem before_succ {step : Step} (h : steps[i]? = some step) :
    before steps (i + 1) = ((before steps i).step step).2 := by
  rw [before, List.take_add_one, h, after_append]
  rfl

/-- Nothing happens after the last step. -/
theorem before_succ_of_none (h : steps[i]? = none) : before steps (i + 1) = before steps i := by
  rw [before, List.take_add_one, h, Option.toList_none, List.append_nil]
  rfl

/-- The outcome of a step in a run. -/
theorem getElem?_run (steps : List Step) (i : Nat) :
    (run steps)[i]? = steps[i]?.map fun step => ((before steps i).step step).1 := by
  suffices h : ∀ s : Session, (s.runFrom steps)[i]? =
      steps[i]?.map fun step => ((s.after (steps.take i)).step step).1 from h empty
  intro s
  induction steps generalizing s i with
  | nil => rfl
  | cons first rest ih =>
      cases i with
      | zero => rfl
      | succ i => exact ih i _

/-- Stamps are handed out one after the other. -/
theorem fresh_before_mono (steps : List Step) : Monotone fun i => (before steps i).fresh := by
  refine monotone_nat_of_le_succ fun i => ?_
  cases hstep : steps[i]? with
  | none => rw [before_succ_of_none hstep]
  | some step =>
      obtain ⟨made, -, hledger, -⟩ := Ledger.empty.after (steps.take i)
      obtain ⟨made', hprefix, hledger', -⟩ := hledger.step step
      have hlength := hprefix.length_le
      rw [← List.length_map Field.stamp, ← List.length_map Field.stamp, hledger.stamps,
        hledger'.stamps, List.length_range, List.length_range] at hlength
      rw [before_succ hstep]
      exact hlength

/-- Whether a field is the one of a making: its stamp is the one that is handed out at that place
in that step. -/
def Born (steps : List Step) (f : Field) (m : Making) : Prop :=
  f.stamp = (before steps m.step).fresh + m.place ∧ f.stamp < (before steps (m.step + 1)).fresh

/-- Stamps of earlier steps are smaller. -/
theorem Born.step_le (hf : Born steps f m) (hg : Born steps g n) (hstamp : f.stamp = g.stamp) :
    m.step ≤ n.step := by
  refine Nat.le_of_not_lt fun hlt => ?_
  have hmono : (before steps (n.step + 1)).fresh ≤ (before steps m.step).fresh :=
    fresh_before_mono steps hlt
  have hlate : (before steps m.step).fresh ≤ f.stamp := hf.1 ▸ Nat.le_add_right _ _
  exact Nat.not_lt.mpr (Nat.le_trans hmono hlate) (hstamp ▸ hg.2)

/-- **A stamp tells its making.** -/
theorem Born.making_eq_iff (hf : Born steps f m) (hg : Born steps g n) :
    f.stamp = g.stamp ↔ m = n := by
  constructor
  · intro hstamp
    have hstep : m.step = n.step :=
      Nat.le_antisymm (hf.step_le hg hstamp) (hg.step_le hf hstamp.symm)
    have hplace : (before steps m.step).fresh + m.place =
        (before steps m.step).fresh + n.place := by
      rw [← hf.1, hstamp, hg.1, hstep]
    cases m
    cases n
    cases hstep
    cases Nat.add_left_cancel hplace
    rfl
  · rintro rfl
    rw [hf.1, hg.1]

/-- **The lineages under names are right before every step.** -/
theorem explained_before (steps : List Step) (i : Nat) :
    (before steps i).Explained (Born steps) (lineages steps i) := by
  induction i with
  | zero => exact nofun
  | succ i ih =>
      cases hstep : steps[i]? with
      | none =>
          rw [before_succ_of_none hstep, lineages, hstep]
          exact ih
      | some step =>
          rw [before_succ hstep, lineages, hstep]
          refine (ih.step step fun place f hf hlt => ⟨hf, ?_⟩).1
          rwa [before_succ hstep]

/-- The answer of a step in a run. -/
theorem explains_origin {step : Step} {answer : Answer} (hstep : steps[i]? = some step)
    (hanswer : ((before steps i).step step).1.result = .ok answer) :
    (origin steps i).Explains (Born steps) answer.fieldAt := by
  rw [origin, hstep]
  refine ((explained_before steps i).step step fun place f hf hlt => ⟨hf, ?_⟩).2 answer hanswer
  rwa [before_succ hstep]

/-! ### Handles of a run -/

/-- The answer of a step in a run. -/
def answerAt (steps : List Step) (i : Nat) : Option Answer :=
  (run steps)[i]?.bind fun outcome => outcome.result.toOption

/-- The field that the answer of a step shows at a path. -/
def fieldAt (steps : List Step) (i : Nat) (path : Path) : Option Field :=
  (answerAt steps i).bind (·.fieldAt path)

theorem answerAt_eq_some_iff {answer : Answer} : answerAt steps i = some answer ↔
    ∃ outcome, (run steps)[i]? = some outcome ∧ outcome.result = .ok answer := by
  rw [answerAt, Option.bind_eq_some_iff]
  refine exists_congr fun outcome => and_congr_right fun _ => ?_
  cases outcome.result <;> simp [Except.toOption]

variable {path path' : Path}

/-- **Every handle goes back to a making.** -/
theorem exists_origin (h : fieldAt steps i path = some f) :
    ∃ m, origin steps i path = some m ∧ Born steps f m := by
  obtain ⟨answer, hanswer, hf⟩ := Option.bind_eq_some_iff.mp h
  obtain ⟨outcome, houtcome, hok⟩ := answerAt_eq_some_iff.mp hanswer
  rw [getElem?_run, Option.map_eq_some_iff] at houtcome
  obtain ⟨step, hstep, rfl⟩ := houtcome
  exact explains_origin hstep hok path f hf

/-- Handles with one stamp are handles of one field. -/
theorem eq_of_fieldAt (hf : fieldAt steps i path = some f) (hg : fieldAt steps j path' = some g)
    (hstamp : f.stamp = g.stamp) : f = g := by
  obtain ⟨made, -, hledger, hshown, -⟩ := Ledger.empty.after steps
  have hmade : ∀ {i path f}, fieldAt steps i path = some f → f ∈ made := by
    intro i path f h
    obtain ⟨answer, hanswer, hf⟩ := Option.bind_eq_some_iff.mp h
    obtain ⟨outcome, houtcome, hok⟩ := answerAt_eq_some_iff.mp hanswer
    exact hshown outcome (List.mem_of_getElem? houtcome) answer hok
      (Answer.mem_shown_of_fieldAt hf)
  exact hledger.eq_of_stamp (hmade hf) (hmade hg) hstamp

/-- Fields are counted by their makings. -/
theorem countDistinct_eq_card_origins {fields : List Field} {origins : List (Option Making)}
    (h : List.Forall₂ (fun f o => ∃ m, o = some m ∧ Born steps f m) fields origins) :
    Field.countDistinct fields = origins.toFinset.card := by
  let stampOf : Option Making → Nat := fun o =>
    o.elim 0 fun m => (before steps m.step).fresh + m.place
  have hborn : fields.map Field.stamp = origins.map stampOf ∧
      ∀ o ∈ origins, ∃ m f, o = some m ∧ Born steps f m := by
    induction h with
    | nil => exact ⟨rfl, nofun⟩
    | @cons f o _ _ hborn _ ih =>
        obtain ⟨m, rfl, hborn⟩ := hborn
        refine ⟨?_, List.forall_mem_cons.mpr ⟨⟨m, f, rfl, hborn⟩, ih.2⟩⟩
        rw [List.map_cons, List.map_cons, ih.1, hborn.1]
        rfl
  have himage : (origins.map stampOf).toFinset = origins.toFinset.image stampOf := by
    ext n
    simp
  rw [Field.countDistinct_eq_card, hborn.1, himage]
  refine Finset.card_image_of_injOn fun o ho o' ho' heq => ?_
  obtain ⟨m, f, rfl, hf⟩ := hborn.2 o (List.mem_toFinset.mp ho)
  obtain ⟨n, g, rfl, hg⟩ := hborn.2 o' (List.mem_toFinset.mp ho')
  exact congrArg some ((hf.making_eq_iff hg).mp (hf.1.trans (heq.trans hg.1.symm)))

/-- Counting fields under names counts the makings that these go back to. -/
theorem answerAt_countFields {handles : List Handle} {name : Option Handle} {count : Nat}
    (hstep : steps[i]? = some ⟨.countFields handles, name⟩)
    (hanswer : answerAt steps i = some (.count count)) :
    count = (handles.map fun handle => lineages steps i handle []).toFinset.card := by
  obtain ⟨outcome, houtcome, hok⟩ := answerAt_eq_some_iff.mp hanswer
  rw [getElem?_run, hstep, Option.map_some, Option.some.injEq] at houtcome
  rw [← houtcome, result_step] at hok
  have hs : (before steps i).started.Explained (Born steps) (lineages steps i) :=
    explained_before steps i
  have hfound : Tracks (Born steps) (lineages steps i) (before steps i).started
      (perform (.countFields handles)) fun result _ =>
        ∃ fields, result.1 = .count (Field.countDistinct fields) ∧
          List.Forall₂ (fun handle f =>
            ∃ m, lineages steps i handle [] = some m ∧ Born steps f m) handles fields := by
    refine (tracks_mapM hs (tracks_field hs) handles).bind ?_
    rintro fields s' hs' ⟨-, hfields⟩
    exact .pure hs' ⟨fields, rfl, hfields.imp fun handle f hf => hf [] f rfl⟩
  cases hexec : (exec (perform (.countFields handles)) (before steps i).started).1 with
  | error refusal =>
      rw [hexec] at hok
      cases hok
  | ok result =>
      obtain ⟨fields, hcount, hfields⟩ := hfound.2 result hexec
      rw [hexec] at hok
      cases hok.symm.trans (congrArg Except.ok hcount)
      exact countDistinct_eq_card_origins (List.forall₂_map_right_iff.mpr hfields.flip)

/-- **Equality of handles is one making.** In every run of steps, every field that an answer gives
out stands at some path there, and every field at a path goes back to a making, which lineages
tell without looking at fields. For any two handles that come up in the run: they are equal
exactly when their stamps are, exactly when they go back to one making, and equal ones are
handles of one field, with one type, one remote name and one stamp. Fields of two makings are
never equal, whatever types and remote names they have. Any number of handles has as many
different ones as there are makings among them; this is also what is answered when fields under
names are counted. -/
theorem same_iff_origin (steps : List Step) :
    (∀ i answer, answerAt steps i = some answer → answer.IsOpen → ∀ f ∈ answer.shown,
      ∃ path, fieldAt steps i path = some f) ∧
      (∀ i path f, fieldAt steps i path = some f →
        ∃ m, origin steps i path = some m ∧ Born steps f m) ∧
      (∀ i path f j path' g, fieldAt steps i path = some f → fieldAt steps j path' = some g →
        (f.same g = true ↔ f.stamp = g.stamp) ∧
        (f.same g = true ↔ origin steps i path = origin steps j path') ∧
        (f.same g = true → f = g)) ∧
      (∀ f g m n, Born steps f m → Born steps g n → m ≠ n → f.same g = false) ∧
      (∀ (places : List (Nat × Path)) (fields : List Field),
        List.Forall₂ (fun place f => fieldAt steps place.1 place.2 = some f) places fields →
        Field.countDistinct fields =
          (places.map fun place => origin steps place.1 place.2).toFinset.card) ∧
      ∀ i handles name count, steps[i]? = some ⟨.countFields handles, name⟩ →
        answerAt steps i = some (.count count) →
        count = (handles.map fun handle => lineages steps i handle []).toFinset.card := by
  have hsame : ∀ f g : Field, f.same g = true ↔ f.stamp = g.stamp := fun _ _ => beq_iff_eq
  refine ⟨?_, fun _ _ _ => exists_origin, ?_, ?_, ?_, fun _ _ _ _ => answerAt_countFields⟩
  · intro i answer hanswer hopen f hf
    obtain ⟨path, hpath⟩ := (Answer.mem_shown_iff_fieldAt hopen).mp hf
    refine ⟨path, ?_⟩
    rw [fieldAt, hanswer]
    exact hpath
  · intro i path f j path' g hf hg
    obtain ⟨m, hm, hborn⟩ := exists_origin hf
    obtain ⟨n, hn, hborn'⟩ := exists_origin hg
    refine ⟨hsame f g, ?_, fun h => eq_of_fieldAt hf hg ((hsame f g).mp h)⟩
    rw [hsame, hborn.making_eq_iff hborn', hm, hn, Option.some.injEq]
  · intro f g m n hf hg hne
    rw [← Bool.not_eq_true, hsame, hf.making_eq_iff hg]
    exact hne
  · intro places fields hfields
    have hborn := hfields.flip.imp fun f place hf => exists_origin hf
    exact countDistinct_eq_card_origins (List.forall₂_map_right_iff.mpr hborn)

/-- Two fields of one type and one remote name are put into a table under one logical name. What
is looked up there is the later one, and the handles are of two fields. -/
theorem same_iff_origin_repeated :
    let steps : List Step :=
      [⟨.newField .text "Name" false, some "first"⟩, ⟨.newField .text "Name" false, some "later"⟩,
        ⟨.newTable "People" [("who", "first"), ("who", "later")], some "people"⟩,
        ⟨.projectTable "people" ["who"], some "chosen"⟩, ⟨.projectedField "chosen" "who", none⟩]
    let first : Field := ⟨0, .text, "Name"⟩
    let later : Field := ⟨1, .text, "Name"⟩
    (fieldAt steps 0 [] = some first ∧ fieldAt steps 1 [] = some later ∧
        fieldAt steps 4 [] = some later) ∧
      (origin steps 0 [] = some ⟨0, 0⟩ ∧ origin steps 1 [] = some ⟨1, 0⟩ ∧
        origin steps 4 [] = some ⟨1, 0⟩) ∧
      (first.same later = true ↔ origin steps 0 [] = origin steps 4 []) ∧
      (later.same later = true ↔ origin steps 1 [] = origin steps 4 []) ∧
      Field.countDistinct [first, later, later] =
        ([(0, []), (1, []), (4, [])].map fun place =>
          origin steps place.1 place.2).toFinset.card := by
  intro steps first later
  have hfirst : fieldAt steps 0 [] = some first := by decide
  have hlater : fieldAt steps 1 [] = some later := by decide
  have hfound : fieldAt steps 4 [] = some later := by decide
  have horigins : origin steps 0 [] = some ⟨0, 0⟩ ∧ origin steps 1 [] = some ⟨1, 0⟩ ∧
      origin steps 4 [] = some ⟨1, 0⟩ := by decide
  obtain ⟨-, -, hhandles, -, hcount, -⟩ := same_iff_origin steps
  have hdifferent := hhandles 0 [] first 4 [] later hfirst hfound
  have hequal := hhandles 1 [] later 4 [] later hlater hfound
  have hcounted := hcount [(0, []), (1, []), (4, [])] [first, later, later]
    (.cons hfirst (.cons hlater (.cons hfound .nil)))
  exact ⟨⟨hfirst, hlater, hfound⟩, horigins, hdifferent.2.1, hequal.2.1, hcounted⟩

end Session

end RecordQuery
