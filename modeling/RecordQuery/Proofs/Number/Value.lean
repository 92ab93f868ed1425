import Mathlib.Algebra.Order.Group.Unbundled.Abs
import Mathlib.Tactic.Linarith
import RecordQuery.Proofs.Number.Rounding

/-!
# Exact Values and Correct Rounding

Every number of a format has an exact value. A rational is rounded correctly to a number when no
other number is closer, and of two equally close the one with the even ordinal is taken. Infinity
counts as the value that comes after the greatest finite one, as if exponents went on: what is
not closer to a finite number is rounded to infinity.

## Main results

* `Binary.isNearest_ofInt` — integers are rounded correctly;
* `Binary.IsNearest.value_eq` — a rational is rounded to one value at most;
* `Binary.isNearest_decimal_iff` — the nearest ordinal to a decimal is where it is rounded to.
-/

namespace RecordQuery

-- Powers of natural numbers are the core ones, whatever else is imported.
attribute [local instance (high)] instPowNat

/-- The exact value of an ordinal. -/
def Format.magnitude (F : Format) (ordinal : Nat) : ℚ := F.units ordinal / 2 ^ F.scale

namespace Format

variable (F : Format)

@[simp] theorem magnitude_zero : F.magnitude 0 = 0 := by
  rw [magnitude, units_zero, Nat.cast_zero, zero_div]

theorem strictMono_magnitude : StrictMono F.magnitude := fun _ _ h =>
  div_lt_div_of_pos_right (Nat.cast_lt.mpr (F.strictMono_units h)) (by positivity)

theorem magnitude_nonneg (ordinal : Nat) : 0 ≤ F.magnitude ordinal :=
  F.magnitude_zero ▸ F.strictMono_magnitude.monotone (Nat.zero_le ordinal)

/-- Which decimals round to an ordinal or one below it, by exact values. -/
theorem nearestDecimal_le_iff_magnitude {d : Decimal} {ordinal : Nat}
    (h : ordinal < F.infinity) :
    F.nearestDecimal d ≤ ordinal ↔
      2 * d.value < F.magnitude ordinal + F.magnitude (ordinal + 1) ∨
        (2 * d.value = F.magnitude ordinal + F.magnitude (ordinal + 1) ∧
          ordinal % 2 = 0) := by
  have hscale : (0 : ℚ) < 2 ^ F.scale := by positivity
  have hmiddle : F.magnitude ordinal + F.magnitude (ordinal + 1) =
      F.middle ordinal / 2 ^ F.scale := by
    rw [magnitude, magnitude, middle, Nat.cast_add, add_div]
  rw [F.nearestDecimal_le_iff h, hmiddle, lt_div_iff₀ hscale, eq_div_iff hscale.ne', mul_assoc]

/-- **Which decimals round to an ordinal**: those between the points halfway to its neighbours,
and both points belong to an even ordinal. -/
theorem nearestDecimal_eq_iff {d : Decimal} {below : Nat} (h : below + 1 < F.infinity) :
    F.nearestDecimal d = below + 1 ↔
      (F.magnitude (below + 1) + F.magnitude below < 2 * d.value ∨
        (F.magnitude (below + 1) + F.magnitude below = 2 * d.value ∧ (below + 1) % 2 = 0)) ∧
      (2 * d.value < F.magnitude (below + 1) + F.magnitude (below + 2) ∨
        (2 * d.value = F.magnitude (below + 1) + F.magnitude (below + 2) ∧
          (below + 1) % 2 = 0)) := by
  have hupper := F.nearestDecimal_le_iff_magnitude (d := d) h
  have hlower := F.nearestDecimal_le_iff_magnitude (d := d) (Nat.lt_of_succ_lt h)
  have hsplit : F.nearestDecimal d = below + 1 ↔
      ¬ F.nearestDecimal d ≤ below ∧ F.nearestDecimal d ≤ below + 1 := by omega
  rw [hsplit, hupper, hlower, add_comm (F.magnitude below)]
  refine and_congr_left fun _ => ?_
  have hparity : (below + 1) % 2 = 0 ↔ ¬ below % 2 = 0 := by omega
  rw [hparity, not_or, not_and, not_lt, le_iff_lt_or_eq]
  constructor
  · rintro ⟨hlt | heq, htie⟩
    · exact .inl hlt
    · exact .inr ⟨heq, htie heq.symm⟩
  · rintro (hlt | ⟨heq, htie⟩)
    · exact ⟨.inl hlt, fun h => absurd h.symm hlt.ne⟩
    · exact ⟨.inr heq, fun _ => htie⟩

end Format

namespace Binary

variable {F : Format}

/-- The exact value of a number. -/
def value (x : Binary F) : ℚ := if x.negative then -F.magnitude x.ordinal else F.magnitude x.ordinal

/-- The number of the other sign. -/
def opposite (x : Binary F) : Binary F := { x with negative := !x.negative }

@[simp] theorem value_opposite (x : Binary F) : x.opposite.value = -x.value := by
  rw [value, value, opposite]
  cases x.negative <;> simp

@[simp] theorem opposite_opposite (x : Binary F) : x.opposite.opposite = x := by
  rw [opposite, opposite, Bool.not_not]

/-- The absolute value of a number is that of its ordinal. -/
theorem abs_value (x : Binary F) : |x.value| = F.magnitude x.ordinal := by
  rw [value]
  split
  · rw [abs_neg, abs_of_nonneg (F.magnitude_nonneg _)]
  · rw [abs_of_nonneg (F.magnitude_nonneg _)]

/-- **Correct rounding**: `q` is rounded to `x`. -/
structure IsNearest (x : Binary F) (q : ℚ) : Prop where
  number : x.isNaN = false
  /-- No number is closer, infinities included. -/
  closest : ∀ y : Binary F, y.isNaN = false → |q - x.value| ≤ |q - y.value|
  /-- Of two equally close numbers the even one is taken. -/
  even : ∀ y : Binary F, y.isNaN = false → y.value ≠ x.value → |q - x.value| = |q - y.value| →
    x.ordinal % 2 = 0

/-- Rounding does not look at signs. -/
theorem IsNearest.opposite {x : Binary F} {q : ℚ} (h : x.IsNearest q) :
    x.opposite.IsNearest (-q) := by
  have hdistance : ∀ y : Binary F, |-q - y.opposite.value| = |q - y.value| := by
    intro y
    rw [value_opposite, ← abs_neg (q - y.value)]
    congr 1
    ring
  refine ⟨h.number, fun y hy => ?_, fun y hy hne heq => ?_⟩
  · rw [hdistance, ← opposite_opposite y, hdistance]
    exact h.closest y.opposite hy
  · rw [hdistance, ← opposite_opposite y, hdistance] at heq
    refine h.even y.opposite hy (fun hvalue => hne ?_) heq
    rw [value_opposite, ← hvalue, value_opposite, neg_neg]

theorem isNearest_opposite_iff {x : Binary F} {q : ℚ} :
    x.opposite.IsNearest (-q) ↔ x.IsNearest q := by
  refine ⟨fun h => ?_, IsNearest.opposite⟩
  rw [← opposite_opposite x, ← neg_neg q]
  exact h.opposite

/-- The place of a number that is none of the values that are no numbers. -/
theorem ordinal_le_infinity {x : Binary F} (h : x.isNaN = false) : x.ordinal ≤ F.infinity :=
  Nat.le_of_not_lt (of_decide_eq_false h)

/-- The positive number at a place up to infinity. -/
def ofOrdinal (ordinal : Nat) (h : ordinal ≤ F.infinity) : Binary F :=
  ⟨false, ordinal, Nat.lt_of_le_of_lt h F.infinity_lt⟩

theorem isNaN_ofOrdinal {ordinal : Nat} (h : ordinal ≤ F.infinity) :
    (ofOrdinal ordinal h).isNaN = false :=
  decide_eq_false (Nat.not_lt_of_le h)

theorem value_ofOrdinal {ordinal : Nat} (h : ordinal ≤ F.infinity) :
    (ofOrdinal ordinal h).value = F.magnitude ordinal := rfl

/-- Between two numbers of even ordinals lies another number, here when both are not negative. -/
theorem exists_between_of_nonneg {x y : Binary F} (hy : y.isNaN = false)
    (hxeven : x.ordinal % 2 = 0) (hyeven : y.ordinal % 2 = 0) (hnonneg : 0 ≤ x.value)
    (h : x.value < y.value) :
    ∃ z : Binary F, z.isNaN = false ∧ x.value < z.value ∧ z.value < y.value := by
  have hyle := ordinal_le_infinity hy
  have hx : x.value = F.magnitude x.ordinal := by rw [← abs_value, abs_of_nonneg hnonneg]
  have hy : y.value = F.magnitude y.ordinal := by
    rw [← abs_value, abs_of_pos (lt_of_le_of_lt hnonneg h)]
  rw [hx, hy] at h ⊢
  have hless : x.ordinal < y.ordinal := F.strictMono_magnitude.lt_iff_lt.mp h
  have hbound : x.ordinal + 1 < y.ordinal := by omega
  have hle : x.ordinal + 1 ≤ F.infinity := by omega
  exact ⟨ofOrdinal (x.ordinal + 1) hle, isNaN_ofOrdinal hle,
    F.strictMono_magnitude (Nat.lt_succ_self _), F.strictMono_magnitude hbound⟩

/-- **Between two numbers of even ordinals lies another number.** -/
theorem exists_between {x y : Binary F} (hx : x.isNaN = false) (hy : y.isNaN = false)
    (hxeven : x.ordinal % 2 = 0) (hyeven : y.ordinal % 2 = 0) (h : x.value < y.value) :
    ∃ z : Binary F, z.isNaN = false ∧ x.value < z.value ∧ z.value < y.value := by
  by_cases hxsign : 0 ≤ x.value
  · exact exists_between_of_nonneg hy hxeven hyeven hxsign h
  · have hxsign : x.value < 0 := not_le.mp hxsign
    by_cases hysign : 0 < y.value
    · -- Zero is between numbers of different signs.
      have hzero := value_ofOrdinal (Nat.zero_le F.infinity)
      rw [F.magnitude_zero] at hzero
      refine ⟨ofOrdinal 0 (Nat.zero_le _), isNaN_ofOrdinal _, ?_, ?_⟩
      · rwa [hzero]
      · rwa [hzero]
    · -- The other signs are as before, in the other direction.
      have hnonneg : 0 ≤ y.opposite.value := by
        rw [value_opposite]
        exact neg_nonneg.mpr (not_lt.mp hysign)
      have hless : y.opposite.value < x.opposite.value := by
        rw [value_opposite, value_opposite]
        exact neg_lt_neg h
      obtain ⟨z, hz, hyz, hzx⟩ :=
        exists_between_of_nonneg (x := y.opposite) (y := x.opposite) hx hyeven hxeven hnonneg hless
      rw [value_opposite] at hyz hzx
      refine ⟨z.opposite, hz, ?_, ?_⟩
      · rw [value_opposite]
        exact lt_neg_of_lt_neg hzx
      · rw [value_opposite]
        exact neg_lt_of_neg_lt hyz

/-- Of two numbers the greater one is at least as close as the lesser one from halfway on. -/
theorem abs_sub_le_abs_sub_iff {q x y : ℚ} (h : y < x) : |q - x| ≤ |q - y| ↔ x + y ≤ 2 * q := by
  constructor
  · intro hle
    rcases abs_cases (q - x) with ⟨hx, _⟩ | ⟨hx, _⟩ <;>
      rcases abs_cases (q - y) with ⟨hy, _⟩ | ⟨hy, _⟩ <;> linarith
  · intro hle
    rcases abs_cases (q - x) with ⟨hx, _⟩ | ⟨hx, _⟩ <;>
      rcases abs_cases (q - y) with ⟨hy, _⟩ | ⟨hy, _⟩ <;> linarith

/-- The lesser of two numbers is at least as close as the greater one up to halfway. -/
theorem abs_sub_le_abs_sub_iff' {q x y : ℚ} (h : x < y) : |q - x| ≤ |q - y| ↔ 2 * q ≤ x + y := by
  have hneg := abs_sub_le_abs_sub_iff (q := -q) (neg_lt_neg h)
  have hx : |-q - -x| = |q - x| := by rw [← abs_neg]; congr 1; ring
  have hy : |-q - -y| = |q - y| := by rw [← abs_neg]; congr 1; ring
  rw [hx, hy] at hneg
  rw [hneg]
  constructor <;> intro hle <;> linarith

/-- **A rational is rounded to one value at most.** -/
theorem IsNearest.value_eq {x y : Binary F} {q : ℚ} (hx : x.IsNearest q) (hy : y.IsNearest q) :
    x.value = y.value := by
  have heq := le_antisymm (hx.closest y hy.number) (hy.closest x hx.number)
  -- Two values at the same distance have even ordinals, and what lies between is closer.
  have hless : ∀ {x y : Binary F}, x.IsNearest q → y.IsNearest q →
      |q - x.value| = |q - y.value| → ¬ x.value < y.value := by
    intro x y hx hy heq hlt
    have hxeven := hx.even y hy.number hlt.ne' heq
    have hyeven := hy.even x hx.number hlt.ne heq.symm
    obtain ⟨z, hz, hxz, hzy⟩ := exists_between hx.number hy.number hxeven hyeven hlt
    have hbelow := (abs_sub_le_abs_sub_iff' hxz).mp (hx.closest z hz)
    have habove := (abs_sub_le_abs_sub_iff hlt).mp heq.ge
    linarith
  exact le_antisymm (not_lt.mp (hless hy hx heq.symm)) (not_lt.mp (hless hx hy heq))

/-! ### The nearest ordinal -/

/-- A rational that is rounded to a number that is not zero has its sign. -/
theorem IsNearest.pos {x : Binary F} {q : ℚ} (h : x.IsNearest q) (hx : 0 < x.value) : 0 < q := by
  have hzero := value_ofOrdinal (Nat.zero_le F.infinity)
  rw [F.magnitude_zero] at hzero
  have hclosest := h.closest (ofOrdinal 0 (Nat.zero_le _)) (isNaN_ofOrdinal _)
  rw [hzero, abs_sub_le_abs_sub_iff hx] at hclosest
  linarith

/-- Numbers of another value than a positive one are at most the one before it or at least the
one after it. -/
theorem value_le_or_le (y : Binary F) {below : Nat} (h : y.value ≠ F.magnitude (below + 1)) :
    y.value ≤ F.magnitude below ∨ F.magnitude (below + 2) ≤ y.value := by
  have hmono := F.strictMono_magnitude.monotone
  rcases lt_or_ge y.value 0 with hneg | hnonneg
  · exact .inl (hneg.le.trans (F.magnitude_nonneg _))
  · have hy : y.value = F.magnitude y.ordinal := by rw [← abs_value, abs_of_nonneg hnonneg]
    rcases Nat.lt_trichotomy y.ordinal (below + 1) with hlt | heq | hgt
    · exact .inl (hy ▸ hmono (Nat.le_of_lt_succ hlt))
    · exact absurd (heq ▸ hy) h
    · exact .inr (hy ▸ hmono hgt)

/-- **A decimal is rounded to its nearest ordinal.** -/
theorem isNearest_decimal_iff {x : Binary F} (hsign : x.negative = false)
    (hpos : 0 < x.ordinal) (hfinite : x.ordinal < F.infinity) {d : Decimal} :
    x.IsNearest d.value ↔ F.nearestDecimal d = x.ordinal := by
  obtain ⟨below, hbelow⟩ : ∃ below, x.ordinal = below + 1 := ⟨x.ordinal - 1, by omega⟩
  have hvalue : x.value = F.magnitude (below + 1) := by
    rw [value, hsign, if_neg Bool.false_ne_true, hbelow]
  have hmono := F.strictMono_magnitude
  have hprev : F.magnitude below < x.value := hvalue ▸ hmono (Nat.lt_succ_self _)
  have hnext : x.value < F.magnitude (below + 2) := hvalue ▸ hmono (Nat.lt_succ_self _)
  rw [hbelow, F.nearestDecimal_eq_iff (hbelow ▸ hfinite), ← hvalue]
  constructor
  · -- The neighbours are not closer.
    intro h
    have hprevle : below ≤ F.infinity := by omega
    have hnextle : below + 2 ≤ F.infinity := by omega
    have hclose := h.closest (ofOrdinal below hprevle) (isNaN_ofOrdinal _)
    have hclose' := h.closest (ofOrdinal _ hnextle) (isNaN_ofOrdinal _)
    have hlow := (abs_sub_le_abs_sub_iff hprev).mp hclose
    have hhigh := (abs_sub_le_abs_sub_iff' hnext).mp hclose'
    rw [← hbelow]
    refine ⟨?_, ?_⟩
    · rcases lt_or_eq_of_le hlow with hlt | heq
      · exact .inl hlt
      · refine .inr ⟨heq, h.even _ (isNaN_ofOrdinal hprevle) hprev.ne (le_antisymm hclose ?_)⟩
        exact (abs_sub_le_abs_sub_iff' hprev).mpr (by rw [add_comm]; exact heq.ge)
    · rcases lt_or_eq_of_le hhigh with hlt | heq
      · exact .inl hlt
      · refine .inr ⟨heq, h.even _ (isNaN_ofOrdinal hnextle) hnext.ne' (le_antisymm hclose' ?_)⟩
        exact (abs_sub_le_abs_sub_iff hnext).mpr (by rw [add_comm]; exact heq.ge)
  · -- All other numbers are beyond the neighbours.
    rintro ⟨hlow, hhigh⟩
    have hfar : ∀ y : Binary F, y.value ≠ x.value → _ := fun y hne =>
      value_le_or_le y (hvalue ▸ hne)
    rw [← hbelow] at hlow hhigh
    refine ⟨decide_eq_false (by omega), fun y hy => ?_, fun y hy hne heq => ?_⟩
    · by_cases heq : y.value = x.value
      · rw [heq]
      · rcases hfar y heq with hyle | hyle
        · refine (abs_sub_le_abs_sub_iff (hyle.trans_lt hprev)).mpr ?_
          rcases hlow with hlt | ⟨h, _⟩ <;> linarith
        · refine (abs_sub_le_abs_sub_iff' (hnext.trans_le hyle)).mpr ?_
          rcases hhigh with hlt | ⟨h, _⟩ <;> linarith
    · rcases hfar y hne with hyle | hyle
      · have hle := (abs_sub_le_abs_sub_iff' (hyle.trans_lt hprev)).mp heq.ge
        rcases hlow with hlt | ⟨_, heven⟩
        · linarith
        · exact heven
      · have hle := (abs_sub_le_abs_sub_iff (hnext.trans_le hyle)).mp heq.ge
        rcases hhigh with hlt | ⟨_, heven⟩
        · linarith
        · exact heven

/-- A decimal is rounded to its nearest ordinal, with a sign or without. -/
theorem isNearest_of_nearestDecimal {x : Binary F} (hpos : 0 < x.ordinal)
    (hfinite : x.ordinal < F.infinity) {d : Decimal} (h : F.nearestDecimal d = x.ordinal) :
    x.IsNearest (if x.negative then -d.value else d.value) := by
  cases hsign : x.negative with
  | false => exact (isNearest_decimal_iff hsign hpos hfinite).mpr h
  | true =>
      have hopposite : x.opposite.negative = false := by rw [opposite, hsign, Bool.not_true]
      have hnearest := (isNearest_decimal_iff (x := x.opposite) hopposite hpos hfinite).mpr h
      rw [if_pos rfl, ← opposite_opposite x]
      exact hnearest.opposite

/-! ### Integers -/

/-- A decimal that is rounded to zero is no closer to any other number. -/
theorem isNearest_of_nearestDecimal_zero {x : Binary F} (hx : x.ordinal = 0)
    (hinfinity : 0 < F.infinity) {d : Decimal} (h : F.nearestDecimal d = 0) :
    x.IsNearest d.value := by
  have hvalue : x.value = 0 := abs_eq_zero.mp (by rw [abs_value, hx, F.magnitude_zero])
  have hnonneg := d.value_nonneg
  have hless : 2 * d.value ≤ F.magnitude 1 := by
    have hround := (F.nearestDecimal_le_iff_magnitude hinfinity).mp h.le
    rw [F.magnitude_zero, zero_add] at hround
    exact hround.elim le_of_lt fun heq => heq.1.le
  refine ⟨decide_eq_false (by omega), fun y hy => ?_, fun _ _ _ _ => by rw [hx]⟩
  rw [hvalue, sub_zero, abs_of_nonneg hnonneg]
  by_cases hzero : y.ordinal = 0
  · have hy : y.value = 0 := abs_eq_zero.mp (by rw [abs_value, hzero, F.magnitude_zero])
    rw [hy, sub_zero, abs_of_nonneg hnonneg]
  · have hfar : F.magnitude 1 ≤ |y.value| := by
      rw [abs_value]
      exact F.strictMono_magnitude.monotone (Nat.one_le_iff_ne_zero.mpr hzero)
    have htriangle := abs_sub_abs_le_abs_sub y.value d.value
    rw [abs_of_nonneg hnonneg, abs_sub_comm] at htriangle
    linarith

/-- A decimal that is rounded to infinity is no closer to any finite number. -/
theorem isNearest_of_nearestDecimal_infinity {x : Binary F} (hsign : x.negative = false)
    (hx : x.ordinal = F.infinity) (hinfinity : 0 < F.infinity) (heven : F.infinity % 2 = 0)
    {d : Decimal} (h : F.nearestDecimal d = F.infinity) : x.IsNearest d.value := by
  obtain ⟨last, hlast⟩ : ∃ last, F.infinity = last + 1 := ⟨F.infinity - 1, by omega⟩
  have hvalue : x.value = F.magnitude (last + 1) := by
    rw [value, hsign, if_neg Bool.false_ne_true, hx, hlast]
  have hmore : F.magnitude last + F.magnitude (last + 1) ≤ 2 * d.value := by
    by_contra hless
    have hfinite : last < F.infinity := by omega
    have hround := (F.nearestDecimal_le_iff_magnitude hfinite).mpr (.inl (not_le.mp hless))
    omega
  have hbelow (y : Binary F) (hy : y.isNaN = false) (hne : y.value ≠ x.value) :
      y.value ≤ F.magnitude last := by
    refine (value_le_or_le y (hvalue ▸ hne)).resolve_right (not_le.mpr ?_)
    calc y.value ≤ F.magnitude y.ordinal := abs_value y ▸ le_abs_self y.value
      _ ≤ F.magnitude (last + 1) :=
          F.strictMono_magnitude.monotone (hlast ▸ ordinal_le_infinity hy)
      _ < F.magnitude (last + 2) := F.strictMono_magnitude (Nat.lt_succ_self _)
  refine ⟨decide_eq_false (by omega), fun y hy => ?_, fun _ _ _ _ => hx ▸ heven⟩
  by_cases heq : y.value = x.value
  · rw [heq]
  · have hy := hbelow y hy heq
    have hless := F.strictMono_magnitude (Nat.lt_succ_self last)
    refine (abs_sub_le_abs_sub_iff (by rw [hvalue]; linarith)).mpr ?_
    rw [hvalue]
    linarith

/-- A natural number is rounded to the number nearest to it. -/
theorem isNearest_ofUnits_natCast (n : Nat) :
    (ofUnits false (n * 2 ^ Format.double.scale) 1 : Binary64).IsNearest n := by
  have hinfinity : 0 < Format.double.infinity := by decide
  have hvalue : (⟨n, 0⟩ : Decimal).value = n := by simp [Decimal.value]
  have hordinal : Format.double.nearestDecimal ⟨n, 0⟩ =
      Format.double.nearest (n * 2 ^ Format.double.scale) 1 := by
    change Format.double.nearest (n * 10 ^ 0 * 2 ^ Format.double.scale) 1 = _
    rw [Nat.pow_zero, Nat.mul_one]
  have hle : Format.double.nearest (n * 2 ^ Format.double.scale) 1 ≤ Format.double.infinity :=
    Nat.min_le_left _ _
  rw [← hvalue]
  rcases Nat.eq_zero_or_pos (Format.double.nearest (n * 2 ^ Format.double.scale) 1) with hzero | hpos
  · exact isNearest_of_nearestDecimal_zero hzero hinfinity (hordinal.trans hzero)
  · rcases Nat.lt_or_eq_of_le hle with hfinite | htop
    · exact (isNearest_decimal_iff rfl hpos hfinite).mpr hordinal
    · exact isNearest_of_nearestDecimal_infinity rfl htop hinfinity (by decide)
        (hordinal.trans htop)

/-- **An integer is rounded to the number nearest to it**, and to infinity where it is too great
for the finite ones. -/
theorem isNearest_ofInt (n : Int) : (ofInt n : Binary64).IsNearest n := by
  have hnat := isNearest_ofUnits_natCast n.natAbs
  by_cases hn : n < 0
  · have hopposite : (ofInt n : Binary64) =
        (ofUnits false (n.natAbs * 2 ^ Format.double.scale) 1).opposite := by
      rw [ofInt, decide_eq_true hn]
      rfl
    have hcast : (n : ℚ) = -(n.natAbs : ℚ) := by
      rw [Nat.cast_natAbs, abs_of_neg hn, Int.cast_neg, neg_neg]
    rw [hopposite, hcast]
    exact hnat.opposite
  · have hcast : (n : ℚ) = n.natAbs := by
      rw [Nat.cast_natAbs, abs_of_nonneg (not_lt.mp hn)]
    rw [ofInt, decide_eq_false hn, hcast]
    exact hnat

end Binary

end RecordQuery
