import Mathlib.Data.List.Forall2

/-!
# Lists of Results

Two operations that may fail, one after the other, succeed when both do. An operation that may
fail, done for every item of a list, succeeds when it succeeds for each item, and gives what
comes of each; otherwise it fails as it does for the first item for which it fails.
-/

namespace RecordQuery

/-- Something comes of two operations in a row if something comes of each. -/
theorem bind_eq_ok_iff {α β ε : Type} {x : Except ε α} {f : α → Except ε β} {y : β} :
    x >>= f = .ok y ↔ ∃ a, x = .ok a ∧ f a = .ok y := by
  cases x <;> simp [bind, Except.bind]

/-- Two operations in a row fail when one of them does. -/
theorem bind_eq_error_iff {α β ε : Type} {x : Except ε α} {f : α → Except ε β} {e : ε} :
    x >>= f = .error e ↔ x = .error e ∨ ∃ a, x = .ok a ∧ f a = .error e := by
  cases x <;> simp [bind, Except.bind]

/-- Something comes of what does not fail. -/
theorem exists_eq_ok_iff {α ε : Type} {x : Except ε α} :
    (∃ y, x = .ok y) ↔ ∀ e, x ≠ .error e := by
  cases x <;> simp

/-- What comes of two operations is a pair of what comes of each. -/
theorem pair_eq_ok_iff {α β ε : Type} {x : Except ε α} {y : Except ε β} {a : α} {b : β} :
    (do return (← x, ← y)) = Except.ok (a, b) ↔ x = .ok a ∧ y = .ok b := by
  cases x with
  | error reason => simp [bind, Except.bind]
  | ok a' => cases y <;> simp [bind, Except.bind, pure, Except.pure]

/-- What comes of an operation and is then changed. -/
theorem map_eq_ok_iff {α β ε : Type} {f : α → β} {x : Except ε α} {y : β} :
    f <$> x = .ok y ↔ ∃ a, x = .ok a ∧ f a = y := by
  cases x <;> simp [Functor.map, Except.map]

/-- What is changed if it comes leaves the failure as it is. -/
theorem map_eq_error_iff {α β ε : Type} {f : α → β} {x : Except ε α} {e : ε} :
    f <$> x = .error e ↔ x = .error e := by
  cases x <;> simp [Functor.map, Except.map]

/-- What comes of all items of a list, if something comes of each. -/
theorem mapM_eq_ok_iff {α β ε : Type} {f : α → Except ε β} {xs : List α} {ys : List β} :
    xs.mapM f = .ok ys ↔ List.Forall₂ (fun x y => f x = .ok y) xs ys := by
  induction xs generalizing ys with
  | nil =>
      rw [List.mapM_nil, List.forall₂_nil_left_iff]
      exact ⟨fun h => (Except.ok.inj h).symm, fun h => congrArg Except.ok h.symm⟩
  | cons x xs ih =>
      rw [List.mapM_cons, List.forall₂_cons_left_iff]
      simp only [← ih]
      cases f x with
      | error reason => simp [bind, Except.bind]
      | ok y =>
          cases xs.mapM f with
          | error reason => simp [bind, Except.bind]
          | ok ys' => simp [bind, Except.bind, pure, Except.pure, eq_comm]

/-- Something comes of all items of a list when something comes of each. -/
theorem exists_mapM_eq_ok_iff {α β ε : Type} {f : α → Except ε β} {xs : List α} :
    (∃ ys, xs.mapM f = .ok ys) ↔ ∀ x ∈ xs, ∃ y, f x = .ok y := by
  simp only [mapM_eq_ok_iff]
  induction xs with
  | nil => simp
  | cons x xs ih =>
      simp only [List.forall₂_cons_left_iff, List.forall_mem_cons, ← ih]
      constructor
      · rintro ⟨_, y, ys, hy, hys, rfl⟩
        exact ⟨⟨y, hy⟩, ys, hys⟩
      · rintro ⟨⟨y, hy⟩, ys, hys⟩
        exact ⟨_, y, ys, hy, hys, rfl⟩

/-- Lists are related item by item in two ways if their items are. -/
theorem forall₂_congr_of_mem {α β : Type} {R S : α → β → Prop} {xs : List α}
    (h : ∀ x ∈ xs, ∀ y, R x y ↔ S x y) {ys : List β} :
    List.Forall₂ R xs ys ↔ List.Forall₂ S xs ys := by
  induction xs generalizing ys with
  | nil => rw [List.forall₂_nil_left_iff, List.forall₂_nil_left_iff]
  | cons x xs ih =>
      obtain ⟨hx, hxs⟩ := List.forall_mem_cons.mp h
      simp only [List.forall₂_cons_left_iff, hx, ih hxs]

/-- What is done for all items of a list fails as it does for the first item for which it
fails. -/
theorem mapM_eq_error_iff {α β ε : Type} {f : α → Except ε β} {xs : List α} {e : ε} :
    xs.mapM f = .error e ↔
      ∃ before x after, xs = before ++ x :: after ∧ (∀ y ∈ before, ∃ z, f y = .ok z) ∧
        f x = .error e := by
  induction xs with
  | nil => simp [pure, Except.pure]
  | cons x xs ih =>
      rw [List.mapM_cons]
      constructor
      · intro h
        cases hx : f x with
        | error reason =>
            rw [hx] at h
            cases h
            exact ⟨[], x, xs, rfl, nofun, hx⟩
        | ok y =>
            have hrest : xs.mapM f = .error e := by
              rw [hx] at h
              cases hxs : xs.mapM f with
              | error reason => simpa [hxs, bind, Except.bind] using h
              | ok ys => simp [hxs, bind, Except.bind, pure, Except.pure] at h
            obtain ⟨before, failing, after, rfl, hbefore, hfailing⟩ := ih.mp hrest
            exact ⟨x :: before, failing, after, rfl,
              List.forall_mem_cons.mpr ⟨⟨y, hx⟩, hbefore⟩, hfailing⟩
      · rintro ⟨_ | ⟨first, before⟩, failing, after, heq, hbefore, hfailing⟩
        · cases heq
          rw [hfailing]
          rfl
        · cases heq
          obtain ⟨⟨y, hx⟩, hbefore⟩ := List.forall_mem_cons.mp hbefore
          rw [hx, ih.mpr ⟨before, failing, after, rfl, hbefore, hfailing⟩]
          rfl

/-- What is carried through a list fails at the first item at which it does. -/
theorem foldlM_eq_error_iff {α β ε : Type} {f : β → α → Except ε β} {xs : List α} {start : β}
    {e : ε} :
    xs.foldlM f start = .error e ↔
      ∃ before x after reached, xs = before ++ x :: after ∧
        before.foldlM f start = .ok reached ∧ f reached x = .error e := by
  induction xs generalizing start with
  | nil => simp [pure, Except.pure]
  | cons x xs ih =>
      rw [List.foldlM_cons, bind_eq_error_iff]
      constructor
      · rintro (hx | ⟨reached, hx, hrest⟩)
        · exact ⟨[], x, xs, start, rfl, rfl, hx⟩
        · obtain ⟨before, failing, after, reached', rfl, hbefore, hfailing⟩ := ih.mp hrest
          refine ⟨x :: before, failing, after, reached', rfl, ?_, hfailing⟩
          rw [List.foldlM_cons]
          exact bind_eq_ok_iff.mpr ⟨reached, hx, hbefore⟩
      · rintro ⟨_ | ⟨first, before⟩, failing, after, reached', heq, hbefore, hfailing⟩
        · cases heq
          cases hbefore
          exact .inl hfailing
        · cases heq
          rw [List.foldlM_cons] at hbefore
          obtain ⟨reached, hx, hbefore⟩ := bind_eq_ok_iff.mp hbefore
          exact .inr ⟨reached, hx, ih.mpr ⟨before, failing, after, reached', rfl, hbefore, hfailing⟩⟩

/-- What is said about a failure leaves a success as it is. -/
theorem mapError_eq_ok_iff {α ε ε' : Type} {g : ε → ε'} {x : Except ε α} {y : α} :
    x.mapError g = .ok y ↔ x = .ok y := by
  cases x <;> simp [Except.mapError]

/-- What is said about a failure comes of a failure. -/
theorem mapError_eq_error_iff {α ε ε' : Type} {g : ε → ε'} {x : Except ε α} {e' : ε'} :
    x.mapError g = .error e' ↔ ∃ e, x = .error e ∧ e' = g e := by
  cases x <;> simp [Except.mapError, eq_comm]

/-- What is said about a failure and what is made of a success do not meet. -/
theorem mapError_map {α β ε ε' : Type} (f : α → β) (g : ε → ε') (x : Except ε α) :
    (f <$> x).mapError g = f <$> x.mapError g := by
  cases x <;> rfl

/-- What is said about the failures of all items is said about the failure of each. -/
theorem mapM_mapError {α β ε ε' : Type} {f : α → Except ε β} {g : ε → ε'} (xs : List α) :
    (xs.mapM fun x => (f x).mapError g) = (xs.mapM f).mapError g := by
  induction xs with
  | nil => rfl
  | cons x xs ih =>
      rw [List.mapM_cons, List.mapM_cons, ih]
      cases f x with
      | error reason => rfl
      | ok y => cases xs.mapM f <;> rfl

end RecordQuery
