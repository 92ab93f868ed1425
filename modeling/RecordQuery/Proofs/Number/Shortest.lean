import Mathlib.Algebra.Order.Field.Power
import RecordQuery.Number.Layout
import RecordQuery.Proofs.Number.Value

/-!
# Shortest Decimals are Shortest

The decimal that is found for a magnitude lies on the coarsest grid that has a point rounding to
the magnitude, and is closest to it among those points of the grid. The decimals that round to
the magnitude are an interval, and a decimal of fewer digits would have a power of ten between
itself and the one found, which lies on a coarser grid. So no decimal has fewer digits, and of
those with as many digits none is closer.

One point needs more than that: below a power of ten a decimal of a single digit can lie on a
finer grid than the power itself. It is closer only to a magnitude of a few units, and for each
format these are looked at one by one.

## Main results

* `Format.isCoarsest_shortest` — where the decimal that is found lies;
* `Binary.isShortest_shortest` — it has the fewest digits and is the closest of these;
* `Format.IsCoarsest.digits_lt` — how many digits it can have.
-/

namespace RecordQuery

-- Powers of natural numbers are the core ones, whatever else is imported.
attribute [local instance (high)] instPowNat

/-! ### Digits -/

/-- Whether a rational can be written with so many significant digits. -/
def HasDigits (digits : Nat) (q : ℚ) : Prop :=
  ∃ m e : ℤ, |m| < 10 ^ digits ∧ q = m * 10 ^ e

theorem HasDigits.neg {digits : Nat} {q : ℚ} (h : HasDigits digits q) : HasDigits digits (-q) := by
  obtain ⟨m, e, hm, rfl⟩ := h
  refine ⟨-m, e, by rwa [abs_neg], ?_⟩
  push_cast
  ring

namespace Decimal

/-- A decimal has as many significant digits as its count. -/
theorem hasDigits_value (d : Decimal) : HasDigits d.chars.length d.value := by
  refine ⟨d.digits, d.exponent, ?_, by rw [value, Int.cast_natCast]⟩
  have hdigits : d.digits < 10 ^ d.chars.length :=
    (Nat.length_toDigits_le_iff (by decide) Nat.length_toDigits_pos).mp (Nat.le_refl _)
  rw [Nat.abs_cast]
  exact_mod_cast hdigits

/-- The first of several digits is not left out. -/
theorem pow_le_digits {d : Decimal} {n : Nat} (hn : n < d.chars.length) (hpos : 0 < d.digits) :
    10 ^ n ≤ d.digits := by
  rcases Nat.eq_zero_or_pos n with rfl | hn'
  · exact hpos
  · by_contra hlt
    have hle := (Nat.length_toDigits_le_iff (b := 10) (by decide) hn').mpr (Nat.lt_of_not_le hlt)
    exact absurd hn (Nat.not_lt_of_le hle)

/-- A positive rational of so many digits is a decimal. -/
theorem exists_of_hasDigits {n : Nat} {q : ℚ} (h : HasDigits n q) (hq : 0 < q) :
    ∃ d : Decimal, d.digits < 10 ^ n ∧ d.value = q := by
  obtain ⟨m, e, hm, rfl⟩ := h
  have hpos : 0 < m := by
    have hten : (0 : ℚ) < 10 ^ e := by positivity
    exact_mod_cast pos_of_mul_pos_left hq hten.le
  obtain ⟨digits, rfl⟩ := Int.eq_ofNat_of_zero_le hpos.le
  refine ⟨⟨digits, e⟩, ?_, by rw [value, Int.cast_natCast]⟩
  rw [Nat.abs_cast] at hm
  exact_mod_cast hm

/-- Zeros at the end of the digits are a power of ten. -/
theorem value_mul_pow (digits t : Nat) (e : ℤ) :
    (⟨digits * 10 ^ t, e⟩ : Decimal).value = (⟨digits, e + t⟩ : Decimal).value := by
  rw [value, value, zpow_add₀ (by norm_num), zpow_natCast]
  push_cast
  ring

/-- Less digits in no greater places are no greater decimal. -/
theorem value_le {d : Decimal} {digits : Nat} {e : ℤ} (hdigits : d.digits ≤ digits)
    (he : d.exponent ≤ e) : d.value ≤ (⟨digits, e⟩ : Decimal).value := by
  rw [value, value]
  refine mul_le_mul ?_ (zpow_le_zpow_right₀ (by norm_num) he) (by positivity) (Nat.cast_nonneg _)
  exact_mod_cast hdigits

/-- A decimal of no digits has no value. -/
theorem value_eq_zero {d : Decimal} (h : d.digits = 0) : d.value = 0 := by
  rw [value, h, Nat.cast_zero, zero_mul]

end Decimal

namespace Format

variable {F : Format}

/-! ### Decimals that round to an ordinal -/

/-- No digits do not round to a positive number. -/
theorem digits_pos {d : Decimal} {ordinal : Nat} (hpos : 0 < ordinal)
    (h : F.nearestDecimal d = ordinal) : 0 < d.digits := by
  by_contra hzero
  have hvalue : d.value = (⟨0, 0⟩ : Decimal).value := by
    rw [Decimal.value_eq_zero (Nat.eq_zero_of_not_pos hzero), Decimal.value_zero]
  rw [F.nearestDecimal_congr hvalue, F.nearestDecimal_zero] at h
  omega

/-- A decimal that rounds to an ordinal is not beyond the point halfway to the next one. -/
theorem two_mul_value_le {d : Decimal} {ordinal : Nat} (hfinite : ordinal < F.infinity)
    (h : F.nearestDecimal d = ordinal) :
    2 * d.value ≤ F.magnitude ordinal + F.magnitude (ordinal + 1) := by
  rcases (F.nearestDecimal_le_iff_magnitude hfinite).mp h.le with hlt | ⟨heq, _⟩
  · exact hlt.le
  · exact heq.le

/-- A decimal that rounds to an ordinal is not below the point halfway to the one before. -/
theorem le_two_mul_value {d : Decimal} {below : Nat} (hfinite : below < F.infinity)
    (h : F.nearestDecimal d = below + 1) :
    F.magnitude below + F.magnitude (below + 1) ≤ 2 * d.value := by
  by_contra hlt
  have hle := (F.nearestDecimal_le_iff_magnitude hfinite).mpr (.inl (not_le.mp hlt))
  omega

/-- What the magnitude is in decimal units. -/
theorem magnitude_eq_decimalUnits (ordinal : Nat) :
    F.magnitude ordinal = F.decimalUnits ordinal / 10 ^ F.scale := by
  rw [magnitude, decimalUnits, show (10 : ℚ) ^ F.scale = 2 ^ F.scale * 5 ^ F.scale by
    rw [← mul_pow]; norm_num]
  push_cast
  field_simp

/-! ### Points of a grid -/

/-- The decimal of a point of a grid. -/
def gridPoint (F : Format) (place digits : Nat) : Decimal := ⟨digits, (place : Int) - F.scale⟩

theorem value_gridPoint (place digits : Nat) :
    (F.gridPoint place digits).value = (digits * 10 ^ place : Nat) / 10 ^ F.scale := by
  rw [gridPoint, Decimal.value, zpow_sub₀ (by norm_num), zpow_natCast, zpow_natCast, mul_div_assoc']
  push_cast
  rfl

/-- Rounding a point of a grid is reading it back. -/
theorem readsBack_iff {ordinal place digits : Nat} :
    F.readsBack ordinal place digits = true ↔
      F.nearestDecimal (F.gridPoint place digits) = ordinal := by
  rw [readsBack, beq_iff_eq, gridPoint, F.nearestDecimal_gridPoint]

/-- The magnitude itself is a point of the finest grid. -/
theorem value_exact (ordinal : Nat) :
    (F.gridPoint 0 (F.decimalUnits ordinal)).value = F.magnitude ordinal := by
  rw [value_gridPoint, magnitude_eq_decimalUnits, Nat.pow_zero, Nat.mul_one]

theorem nearestDecimal_exact {ordinal : Nat} (h : ordinal ≤ F.infinity) :
    F.nearestDecimal (F.gridPoint 0 (F.decimalUnits ordinal)) = ordinal := by
  have hexact := F.nearestDecimal_coarsest h .up 0
  rwa [coarsest, ← Int.zero_sub] at hexact

/-- The magnitude is between the two points of a grid that are looked at. -/
theorem value_gridPoint_le_lt (ordinal place : Nat) :
    let low := F.decimalUnits ordinal / 10 ^ place
    (F.gridPoint place low).value ≤ F.magnitude ordinal ∧
      F.magnitude ordinal < (F.gridPoint place (low + 1)).value := by
  intro low
  have hscale : (0 : ℚ) < 10 ^ F.scale := by positivity
  rw [value_gridPoint, value_gridPoint, magnitude_eq_decimalUnits]
  refine ⟨div_le_div_of_nonneg_right ?_ hscale.le, div_lt_div_of_pos_right ?_ hscale⟩
  · exact_mod_cast Nat.div_mul_le_self _ _
  · exact_mod_cast Nat.lt_mul_of_div_lt (Nat.lt_succ_self low) (Nat.pow_pos (by decide))

/-- If a point of a grid reads back, so does the one that is looked at on the same side of the
magnitude. -/
theorem readsBack_neighbour {ordinal place digits : Nat} (h : ordinal ≤ F.infinity)
    (hback : F.nearestDecimal (F.gridPoint place digits) = ordinal) :
    let low := F.decimalUnits ordinal / 10 ^ place
    (digits ≤ low ∧ F.readsBack ordinal place low = true) ∨
      (low + 1 ≤ digits ∧ F.readsBack ordinal place (low + 1) = true) := by
  intro low
  obtain ⟨hlow, hhigh⟩ := F.value_gridPoint_le_lt ordinal place
  rw [← value_exact] at hlow hhigh
  have hexact := F.nearestDecimal_exact h
  rcases Nat.lt_or_ge low digits with hlt | hle
  · exact .inr ⟨hlt, readsBack_iff.mpr (F.nearestDecimal_eq_of_between hexact hback hhigh.le
      (Decimal.value_le hlt le_rfl))⟩
  · exact .inl ⟨hle, readsBack_iff.mpr (F.nearestDecimal_eq_of_between hback hexact
      (Decimal.value_le hle le_rfl) hlow)⟩

/-- Where no point of a grid is found, none reads back. -/
theorem ne_of_gridPoint?_none {tie : Tie} {ordinal place : Nat} (h : ordinal ≤ F.infinity)
    (hnone : F.gridPoint? tie ordinal place = none) (digits : Nat) :
    F.nearestDecimal (F.gridPoint place digits) ≠ ordinal := by
  intro hback
  rw [gridPoint?] at hnone
  rcases F.readsBack_neighbour h hback with ⟨_, hlow⟩ | ⟨_, hhigh⟩
  · rw [hlow] at hnone
    split at hnone <;> simp_all
  · rw [hhigh] at hnone
    split at hnone <;> simp_all

/-- No point below a magnitude is closer than the one that is looked at. -/
theorem closest_of_le {ordinal place digits : Nat}
    (h : digits ≤ F.decimalUnits ordinal / 10 ^ place) :
    |(F.gridPoint place (F.decimalUnits ordinal / 10 ^ place)).value - F.magnitude ordinal| ≤
      |(F.gridPoint place digits).value - F.magnitude ordinal| := by
  have hlow := (F.value_gridPoint_le_lt ordinal place).1
  have hdigits : (F.gridPoint place digits).value ≤ (F.gridPoint place _).value :=
    Decimal.value_le h le_rfl
  rw [abs_of_nonpos (sub_nonpos.mpr hlow), abs_of_nonpos (sub_nonpos.mpr (hdigits.trans hlow))]
  exact neg_le_neg (sub_le_sub_right hdigits _)

/-- No point above a magnitude is closer than the one that is looked at. -/
theorem closest_of_lt {ordinal place digits : Nat}
    (h : F.decimalUnits ordinal / 10 ^ place < digits) :
    |(F.gridPoint place (F.decimalUnits ordinal / 10 ^ place + 1)).value - F.magnitude ordinal| ≤
      |(F.gridPoint place digits).value - F.magnitude ordinal| := by
  have hhigh := (F.value_gridPoint_le_lt ordinal place).2.le
  have hdigits : (F.gridPoint place _).value ≤ (F.gridPoint place digits).value :=
    Decimal.value_le (Nat.succ_le_of_lt h) le_rfl
  rw [abs_of_nonneg (sub_nonneg.mpr hhigh), abs_of_nonneg (sub_nonneg.mpr (hhigh.trans hdigits))]
  exact sub_le_sub_right hdigits _

/-- The remainder tells which of the two points is closer. -/
theorem mod_le_iff (ordinal place : Nat) :
    let low := F.decimalUnits ordinal / 10 ^ place
    let twice := 2 * (F.decimalUnits ordinal % 10 ^ place)
    (twice ≤ 10 ^ place ↔ |(F.gridPoint place low).value - F.magnitude ordinal| ≤
        |(F.gridPoint place (low + 1)).value - F.magnitude ordinal|) ∧
      (10 ^ place ≤ twice ↔ |(F.gridPoint place (low + 1)).value - F.magnitude ordinal| ≤
        |(F.gridPoint place low).value - F.magnitude ordinal|) := by
  intro low twice
  have hscale : (0 : ℚ) < 10 ^ F.scale := by positivity
  have hsplit : 10 ^ place * low + F.decimalUnits ordinal % 10 ^ place = F.decimalUnits ordinal :=
    Nat.div_add_mod _ _
  have hpoints : (F.gridPoint place low).value + (F.gridPoint place (low + 1)).value =
      ((2 * low + 1) * 10 ^ place : Nat) / 10 ^ F.scale := by
    simp only [value_gridPoint, ← add_div]
    push_cast
    ring
  have hmagnitude : 2 * F.magnitude ordinal =
      (2 * F.decimalUnits ordinal : Nat) / 10 ^ F.scale := by
    rw [magnitude_eq_decimalUnits, Nat.cast_mul, Nat.cast_ofNat, mul_div_assoc]
  have hsum : (2 * low + 1) * 10 ^ place = 2 * (10 ^ place * low) + 10 ^ place := by ring
  obtain ⟨hlow, hhigh⟩ := F.value_gridPoint_le_lt ordinal place
  have hlt := hlow.trans_lt hhigh
  rw [abs_sub_comm, abs_sub_comm _ (F.magnitude ordinal), Binary.abs_sub_le_abs_sub_iff' hlt,
    Binary.abs_sub_le_abs_sub_iff hlt, add_comm (F.gridPoint place (low + 1)).value, hpoints,
    hmagnitude, div_le_div_iff_of_pos_right hscale, div_le_div_iff_of_pos_right hscale,
    Nat.cast_le, Nat.cast_le, hsum]
  omega

/-- **The point of a grid that is chosen is the closest** of those that read back. -/
theorem gridPoint?_closest {tie : Tie} {ordinal place found : Nat} (h : ordinal ≤ F.infinity)
    (hfound : F.gridPoint? tie ordinal place = some found) {digits : Nat}
    (hback : F.nearestDecimal (F.gridPoint place digits) = ordinal) :
    |(F.gridPoint place found).value - F.magnitude ordinal| ≤
      |(F.gridPoint place digits).value - F.magnitude ordinal| := by
  obtain ⟨hlow, hhigh⟩ := F.mod_le_iff ordinal place
  have hneighbour := F.readsBack_neighbour h hback
  simp only [gridPoint?] at hfound
  split at hfound
  · -- Both points read back, and the closer one is chosen.
    split at hfound
    · next hfirst =>
      obtain rfl := Option.some.inj hfound
      have hcloser := hlow.mp (by simp at hfirst; omega)
      rcases hneighbour with ⟨hdigits, -⟩ | ⟨hdigits, -⟩
      · exact closest_of_le hdigits
      · exact hcloser.trans (closest_of_lt hdigits)
    · next hfirst =>
      obtain rfl := Option.some.inj hfound
      have hcloser := hhigh.mp (by simp at hfirst; omega)
      rcases hneighbour with ⟨hdigits, -⟩ | ⟨hdigits, -⟩
      · exact hcloser.trans (closest_of_le hdigits)
      · exact closest_of_lt hdigits
  · next hnext =>
    obtain rfl := Option.some.inj hfound
    rcases hneighbour with ⟨hdigits, -⟩ | ⟨-, hreads⟩
    · exact closest_of_le hdigits
    · rw [hnext] at hreads
      cases hreads
  · next hprev _ =>
    obtain rfl := Option.some.inj hfound
    rcases hneighbour with ⟨-, hreads⟩ | ⟨hdigits, -⟩
    · rw [hprev] at hreads
      cases hreads
    · exact closest_of_lt hdigits
  · cases hfound

/-! ### The coarsest grid -/

/-- Whether a decimal rounds to an ordinal, lies on the coarsest grid that has such a point, and
is the closest of the points there. -/
structure IsCoarsest (F : Format) (ordinal : Nat) (d : Decimal) : Prop where
  place : ∃ place : Nat, d.exponent = (place : Int) - F.scale
  reads : F.nearestDecimal d = ordinal
  coarser : ∀ digits, F.nearestDecimal ⟨digits, d.exponent + 1⟩ ≠ ordinal
  closest : ∀ digits, F.nearestDecimal ⟨digits, d.exponent⟩ = ordinal →
    |d.value - F.magnitude ordinal| ≤
      |(⟨digits, d.exponent⟩ : Decimal).value - F.magnitude ordinal|

/-- Grids that are tried from a place on down lead to the coarsest grid, if the one before has
no point. -/
theorem isCoarsest_coarsest {tie : Tie} {ordinal : Nat} (h : ordinal ≤ F.infinity) (start : Nat)
    (hstart : ∀ digits, F.nearestDecimal (F.gridPoint (start + 1) digits) ≠ ordinal) :
    IsCoarsest F ordinal (F.coarsest tie ordinal start) := by
  have hreads := F.nearestDecimal_coarsest h tie start
  have hnext : ∀ place : Nat,
      (place : Int) - F.scale + 1 = ((place + 1 : Nat) : Int) - F.scale := by
    omega
  induction start with
  | zero =>
      rw [coarsest, ← Int.zero_sub] at hreads ⊢
      refine ⟨⟨0, rfl⟩, hreads, fun digits => ?_, fun digits _ => ?_⟩
      · exact hnext 0 ▸ hstart digits
      · have hexact := F.value_exact ordinal
        rw [gridPoint, Int.natCast_zero] at hexact
        rw [hexact, sub_self, abs_zero]
        exact abs_nonneg _
  | succ start ih =>
      rw [coarsest] at hreads ⊢
      cases hpoint : F.gridPoint? tie ordinal (start + 1) with
      | none =>
          rw [hpoint] at hreads
          exact ih (F.ne_of_gridPoint?_none h hpoint) hreads
      | some found =>
          rw [hpoint] at hreads
          refine ⟨⟨start + 1, rfl⟩, hreads, fun digits => ?_, fun digits hback => ?_⟩
          · exact hnext (start + 1) ▸ hstart digits
          · exact F.gridPoint?_closest h hpoint hback

/-- A power of ten beyond a number, from the number of its bits. -/
theorem lt_ten_pow (n : Nat) : n < 10 ^ (n.log2 * 28 / 93 + 1) * 2 := by
  have hbits : 2 ^ n.log2 ≤ 10 ^ (n.log2 * 28 / 93 + 1) := by
    refine (Nat.pow_le_pow_iff_left (n := 93) (by decide)).mp ?_
    calc (2 ^ n.log2) ^ 93 = (2 ^ 93) ^ n.log2 := by rw [← Nat.pow_mul, ← Nat.pow_mul, Nat.mul_comm]
      _ ≤ (10 ^ 28) ^ n.log2 := Nat.pow_le_pow_left (by decide) _
      _ = 10 ^ (28 * n.log2) := (Nat.pow_mul _ _ _).symm
      _ ≤ 10 ^ ((n.log2 * 28 / 93 + 1) * 93) := Nat.pow_le_pow_right (by decide) (by omega)
      _ = (10 ^ (n.log2 * 28 / 93 + 1)) ^ 93 := Nat.pow_mul _ _ _
  calc n < 2 ^ (n.log2 + 1) := Nat.lt_log2_self
    _ = 2 ^ n.log2 * 2 := Nat.pow_succ _ _
    _ ≤ 10 ^ (n.log2 * 28 / 93 + 1) * 2 := Nat.mul_le_mul_right _ hbits

/-- The magnitude after a positive one is at most its double. -/
theorem magnitude_succ_le {ordinal : Nat} (h : 0 < ordinal) :
    F.magnitude (ordinal + 1) ≤ 2 * F.magnitude ordinal := by
  have hgap := F.gap_le_units h
  rw [magnitude, magnitude, mul_div_assoc', F.units_succ]
  refine div_le_div_of_nonneg_right ?_ (by positivity)
  exact_mod_cast (by omega : F.units ordinal + F.gap ordinal ≤ 2 * F.units ordinal)

/-- **The decimal that is found lies on the coarsest grid**: before the first place that is tried
a point is too great. -/
theorem isCoarsest_shortest {ordinal : Nat} (hpos : 0 < ordinal) (hfinite : ordinal < F.infinity)
    (tie : Tie) : IsCoarsest F ordinal (F.shortest tie ordinal) := by
  refine F.isCoarsest_coarsest hfinite.le _ fun digits hback => ?_
  have hdigits := F.digits_pos hpos hback
  have hbound := F.two_mul_value_le hfinite hback
  have hnext := F.magnitude_succ_le hpos
  have hscale : (0 : ℚ) < 10 ^ F.scale := by positivity
  have hlarge := lt_ten_pow (F.decimalUnits ordinal)
  have hpoint : 2 * (F.gridPoint ((F.decimalUnits ordinal).log2 * 28 / 93 + 2 + 1) digits).value ≤
      3 * F.magnitude ordinal := by linarith
  rw [value_gridPoint, magnitude_eq_decimalUnits, mul_div_assoc', mul_div_assoc',
    div_le_div_iff_of_pos_right hscale] at hpoint
  generalize (F.decimalUnits ordinal).log2 * 28 / 93 = start at hlarge hpoint
  norm_cast at hpoint
  have hgrid : 10 ^ (start + 1) * 100 ≤ digits * 10 ^ (start + 2 + 1) :=
    calc 10 ^ (start + 1) * 100 = 1 * 10 ^ (start + 2 + 1) := by ring
      _ ≤ digits * 10 ^ (start + 2 + 1) := Nat.mul_le_mul_right _ hdigits
  omega

/-! ### Fewest digits -/

/-- A power of ten on a coarser grid is not between two decimals that round to the ordinal, one
of which is on the coarsest grid. -/
theorem IsCoarsest.value_lt_pow {ordinal : Nat} {d d' : Decimal} (h : IsCoarsest F ordinal d)
    (hback : F.nearestDecimal d' = ordinal) {n : Nat}
    (hle : d'.value ≤ (⟨10 ^ n, d.exponent + 1⟩ : Decimal).value) :
    d.value < (⟨10 ^ n, d.exponent + 1⟩ : Decimal).value := by
  by_contra hlt
  exact h.coarser (10 ^ n) (F.nearestDecimal_eq_of_between hback h.reads hle (not_lt.mp hlt))

/-- The power of ten after so many digits from a place on. -/
theorem value_pow_succ (n : Nat) (e : ℤ) :
    (⟨10 ^ (n + 1), e⟩ : Decimal).value = (⟨10 ^ n, e + 1⟩ : Decimal).value := by
  have hshift := Decimal.value_mul_pow (10 ^ n) 1 e
  rwa [Nat.pow_one, ← Nat.pow_succ, Nat.cast_one] at hshift

/-- A decimal of many digits is at least the power of ten. -/
theorem value_pow_le {d : Decimal} {n : Nat} (h : 10 ^ n ≤ d.digits) :
    (⟨10 ^ n, d.exponent⟩ : Decimal).value ≤ d.value := Decimal.value_le h le_rfl

/-- **No decimal that rounds to the ordinal has fewer digits.** -/
theorem IsCoarsest.pow_le_digits {ordinal : Nat} {d d' : Decimal} (h : IsCoarsest F ordinal d)
    (hpos : 0 < ordinal) (hback : F.nearestDecimal d' = ordinal) {n : Nat}
    (hn : 10 ^ n ≤ d.digits) : 10 ^ n ≤ d'.digits := by
  by_contra hfew
  have hfew : d'.digits < 10 ^ n := Nat.lt_of_not_le hfew
  cases n with
  | zero =>
      have hdigits := F.digits_pos hpos hback
      rw [Nat.pow_zero] at hfew
      omega
  | succ n =>
      rcases lt_or_ge d.exponent d'.exponent with hcoarse | hfine
      · -- On a coarser grid nothing rounds to the ordinal.
        obtain ⟨t, ht⟩ := Int.le.dest (show d.exponent + 1 ≤ d'.exponent from hcoarse)
        refine h.coarser (d'.digits * 10 ^ t) ((F.nearestDecimal_congr ?_).trans hback)
        rw [Decimal.value_mul_pow, ht]
      · -- On the same grid or a finer one there is a power of ten in between.
        have hle := Decimal.value_le hfew.le hfine
        rw [value_pow_succ] at hle
        have hlt := h.value_lt_pow hback hle
        rw [← value_pow_succ] at hlt
        exact absurd (value_pow_le hn) (not_le.mpr hlt)

/-- Whether no power of ten lies so above a magnitude that a digit before it is closer. Of the
first ten magnitudes each is looked at. -/
structure Regular (F : Format) : Prop where
  fraction : 10 ≤ 2 ^ F.fractionBits
  first : ∀ ordinal, 0 < ordinal → ordinal < 10 → ∀ place,
    20 * (ordinal * 5 ^ F.scale) < 19 * 10 ^ place →
      (2 * ordinal + 1) * 5 ^ F.scale < 2 * 10 ^ place

/-- A power of ten that rounds to a magnitude is less than a nineteenth greater. -/
theorem Regular.pow_le (hF : F.Regular) {ordinal : Nat} (hpos : 0 < ordinal)
    (hfinite : ordinal < F.infinity) {place : Nat}
    (hback : F.nearestDecimal (F.gridPoint place 1) = ordinal) :
    19 * (F.gridPoint place 1).value ≤ 20 * F.magnitude ordinal := by
  by_contra hgreat
  have hbound := F.two_mul_value_le hfinite hback
  have hscale : (0 : ℚ) < 10 ^ F.scale := by positivity
  rw [value_gridPoint, Nat.one_mul, magnitude_eq_decimalUnits, not_le, mul_div_assoc',
    mul_div_assoc', div_lt_div_iff_of_pos_right hscale] at hgreat
  rw [value_gridPoint, Nat.one_mul, magnitude_eq_decimalUnits, magnitude_eq_decimalUnits, ← add_div,
    mul_div_assoc', div_le_div_iff_of_pos_right hscale, decimalUnits, decimalUnits,
    F.units_succ] at hbound
  rw [decimalUnits] at hgreat
  norm_cast at hgreat hbound
  -- Only a magnitude of less than ten gaps is so far from the power.
  have hfew : 2 * F.units ordinal < 19 * F.gap ordinal := by
    have hfive : 0 < 5 ^ F.scale := Nat.pow_pos (by decide)
    refine Nat.lt_of_mul_lt_mul_right (a := 5 ^ F.scale) ?_
    rw [Nat.add_mul] at hbound
    rw [Nat.mul_assoc, Nat.mul_assoc]
    omega
  have hlow : ordinal < 2 ^ F.fractionBits := by
    by_contra hhigh
    have hmany := F.mul_gap_le_units (Nat.le_of_not_lt hhigh)
    have hten := Nat.mul_le_mul_right (F.gap ordinal) hF.fraction
    have hgap := F.gap_pos ordinal
    omega
  rw [F.units_of_lt hlow, F.gap_of_lt hlow] at *
  refine absurd hbound (Nat.not_le_of_lt ?_)
  refine lt_of_eq_of_lt ?_ (hF.first ordinal hpos (by omega) place hgreat)
  ring

/-- **Of the decimals with as many digits none is closer.** -/
theorem IsCoarsest.abs_sub_le (hF : F.Regular) {ordinal : Nat} {d d' : Decimal}
    (h : IsCoarsest F ordinal d) (hpos : 0 < ordinal) (hfinite : ordinal < F.infinity)
    (hback : F.nearestDecimal d' = ordinal) {n : Nat} (hn : 10 ^ n ≤ d.digits)
    (hn' : d'.digits < 10 ^ (n + 1)) :
    |d.value - F.magnitude ordinal| ≤ |d'.value - F.magnitude ordinal| := by
  rcases lt_or_ge d'.exponent d.exponent with hfine | hcoarse
  · have hle := Decimal.value_le hn'.le (show d'.exponent ≤ d.exponent - 1 by omega)
    rw [value_pow_succ, Int.sub_add_cancel] at hle
    have hpower := value_pow_le hn
    cases n with
    | succ n =>
        -- A power of ten between the decimals is on a coarser grid.
        rw [value_pow_succ] at hle hpower
        exact absurd hpower (not_le.mpr (h.value_lt_pow hback hle))
    | zero =>
        -- The power of ten is on the grid, and it is closer than the single digit before it.
        obtain ⟨place, hplace⟩ := h.place
        have hone := F.nearestDecimal_eq_of_between hback h.reads hle hpower
        refine (h.closest _ hone).trans ?_
        have hreads : F.nearestDecimal (F.gridPoint place 1) = ordinal := by
          rwa [gridPoint, ← hplace]
        have hnear := hF.pow_le hpos hfinite hreads
        have hdigit : d'.value ≤ (⟨9, d.exponent - 1⟩ : Decimal).value :=
          Decimal.value_le (by omega) (by omega)
        have hnine : 10 * (⟨9, d.exponent - 1⟩ : Decimal).value =
            9 * (⟨1, d.exponent⟩ : Decimal).value := by
          rw [Decimal.value, Decimal.value, zpow_sub_one₀ (by norm_num)]
          push_cast
          ring
        rw [gridPoint, ← hplace] at hnear
        rw [Nat.pow_zero]
        have hpoint := Decimal.value_nonneg ⟨1, d.exponent⟩
        rw [abs_of_nonpos (a := d'.value - _) (by linarith), abs_le]
        constructor <;> linarith
  · -- On the same grid or a coarser one the decimal is a point of the grid.
    obtain ⟨t, ht⟩ := Int.le.dest hcoarse
    have hvalue := Decimal.value_mul_pow d'.digits t d.exponent
    rw [ht] at hvalue
    have hclosest := h.closest _ ((F.nearestDecimal_congr hvalue).trans hback)
    rwa [hvalue] at hclosest

/-- The digits of the decimal do not end in zero. -/
theorem IsCoarsest.digits_mod_ne {ordinal : Nat} {d : Decimal} (h : IsCoarsest F ordinal d) :
    d.digits % 10 ≠ 0 := by
  intro hzero
  obtain ⟨tens, htens⟩ := Nat.dvd_of_mod_eq_zero hzero
  have hshift := Decimal.value_mul_pow tens 1 d.exponent
  rw [Nat.pow_one, Nat.mul_comm, ← htens, Nat.cast_one] at hshift
  exact h.coarser tens ((F.nearestDecimal_congr hshift.symm).trans h.reads)

/-- **How many digits the decimal can have**: the gap to the next magnitude has no point of a
coarser grid in its lower half. -/
theorem IsCoarsest.digits_lt {ordinal : Nat} {d : Decimal} (h : IsCoarsest F ordinal d)
    (hfinite : ordinal < F.infinity) : d.digits < 20 * 2 ^ (F.fractionBits + 1) + 10 := by
  obtain ⟨place, hplace⟩ := h.place
  have hscale : (0 : ℚ) < 10 ^ F.scale := by positivity
  obtain ⟨hlow, hhigh⟩ := F.value_gridPoint_le_lt ordinal (place + 1)
  generalize F.decimalUnits ordinal / 10 ^ (place + 1) = low at hlow hhigh
  -- The next point on the coarser grid is beyond the point halfway.
  have hbeyond : F.magnitude ordinal + F.magnitude (ordinal + 1) ≤
      2 * (F.gridPoint (place + 1) (low + 1)).value := by
    by_contra hlt
    have hle := (F.nearestDecimal_le_iff_magnitude hfinite).mpr (.inl (not_le.mp hlt))
    have hge := F.nearestDecimal_mono (F.value_exact ordinal ▸ hhigh.le)
    rw [F.nearestDecimal_exact hfinite.le] at hge
    refine h.coarser (low + 1) ?_
    rw [hplace, show (place : Int) - F.scale + 1 = ((place + 1 : Nat) : Int) - F.scale by omega]
    exact Nat.le_antisymm hle hge
  have hreads := F.two_mul_value_le hfinite h.reads
  have hvalue : d.value = (F.gridPoint place d.digits).value := by rw [gridPoint, ← hplace]
  rw [hvalue] at hreads
  simp only [value_gridPoint, magnitude_eq_decimalUnits, ← add_div, mul_div_assoc',
    div_le_div_iff_of_pos_right hscale] at hlow hbeyond hreads
  norm_cast at hlow hbeyond hreads
  have hnext : F.decimalUnits (ordinal + 1) =
      F.decimalUnits ordinal + F.gap ordinal * 5 ^ F.scale := by
    rw [decimalUnits, F.units_succ, Nat.add_mul, decimalUnits]
  have hmany : F.decimalUnits ordinal <
      2 ^ (F.fractionBits + 1) * (F.gap ordinal * 5 ^ F.scale) := by
    rw [decimalUnits, ← Nat.mul_assoc]
    exact Nat.mul_lt_mul_of_pos_right (F.units_lt_mul_gap ordinal) (Nat.pow_pos (by decide))
  have hstep : 10 ^ (place + 1) = 10 * 10 ^ place := by rw [Nat.pow_succ, Nat.mul_comm]
  rw [hnext] at hbeyond hreads
  rw [hstep] at hlow hbeyond
  generalize F.gap ordinal * 5 ^ F.scale = gap at hmany hbeyond hreads
  have hgap : gap ≤ 20 * 10 ^ place := by
    rw [Nat.add_mul low 1] at hbeyond
    omega
  refine Nat.lt_of_mul_lt_mul_right (a := gap) ?_
  calc d.digits * gap ≤ d.digits * (20 * 10 ^ place) := Nat.mul_le_mul_left _ hgap
    _ = 10 * (2 * (d.digits * 10 ^ place)) := by ring
    _ ≤ 10 * (2 * F.decimalUnits ordinal + gap) := by omega
    _ < 10 * (2 * (2 ^ (F.fractionBits + 1) * gap) + gap) := by omega
    _ = (20 * 2 ^ (F.fractionBits + 1) + 10) * gap := by ring

/-! ### The two formats -/

/-- A unit lies between two powers of ten, and only the one after these is near the first
magnitudes. -/
theorem Regular.of_pow (hfraction : 10 ≤ 2 ^ F.fractionBits) {e : Nat}
    (hunit : 10 ^ e < 5 ^ F.scale ∧ 5 ^ F.scale < 10 ^ (e + 1))
    (hfirst : ∀ ordinal < 10, 0 < ordinal → 20 * (ordinal * 5 ^ F.scale) < 19 * 10 ^ (e + 1) →
      (2 * ordinal + 1) * 5 ^ F.scale < 2 * 10 ^ (e + 1)) : F.Regular where
  fraction := hfraction
  first ordinal hpos hten place hlt := by
    obtain ⟨hlow, hhigh⟩ := hunit
    have hleast : 5 ^ F.scale ≤ ordinal * 5 ^ F.scale := Nat.le_mul_of_pos_left _ hpos
    have hmost : (2 * ordinal + 1) * 5 ^ F.scale ≤ 19 * 5 ^ F.scale :=
      Nat.mul_le_mul_right _ (by omega)
    rcases Nat.lt_trichotomy place (e + 1) with hplace | rfl | hplace
    · have hpow : 10 ^ place ≤ 10 ^ e := Nat.pow_le_pow_right (by decide) (by omega)
      omega
    · exact hfirst ordinal hten hpos hlt
    · have hpow : 10 ^ (e + 1) * 10 ≤ 10 ^ place := by
        rw [← Nat.pow_succ]
        exact Nat.pow_le_pow_right (by decide) hplace
      omega

theorem regular_double : double.Regular :=
  .of_pow (e := 750) (by decide) (by decide +kernel) (by decide +kernel)

theorem regular_single : single.Regular :=
  .of_pow (e := 104) (by decide) (by decide +kernel) (by decide +kernel)

end Format

/-! ### Numbers -/

namespace Binary

variable {F : Format}

/-- Whether a rational is a shortest decimal of a number: it rounds to it, no rational of fewer
digits does, and of those with as many digits that do none is closer. -/
structure IsShortest (x : Binary F) (digits : Nat) (q : ℚ) : Prop where
  nearest : x.IsNearest q
  written : HasDigits digits q
  fewest : ∀ k < digits, ∀ r, HasDigits k r → ¬ x.IsNearest r
  closest : ∀ r, HasDigits digits r → x.IsNearest r → |q - x.value| ≤ |r - x.value|

theorem IsShortest.opposite {x : Binary F} {digits : Nat} {q : ℚ} (h : x.IsShortest digits q) :
    x.opposite.IsShortest digits (-q) where
  nearest := h.nearest.opposite
  written := h.written.neg
  fewest k hk r hr hnearest := by
    rw [← neg_neg r] at hnearest
    exact h.fewest k hk (-r) hr.neg (isNearest_opposite_iff.mp hnearest)
  closest r hr hnearest := by
    rw [← neg_neg r] at hnearest
    have hclosest := h.closest (-r) hr.neg (isNearest_opposite_iff.mp hnearest)
    rw [value_opposite, ← abs_neg, ← abs_neg (r - -x.value)]
    convert hclosest using 2 <;> ring

/-- The decimal on the coarsest grid is a shortest one of a positive number. -/
theorem isShortest_of_isCoarsest (hF : F.Regular) {x : Binary F} (hsign : x.negative = false)
    (hpos : 0 < x.ordinal) (hfinite : x.ordinal < F.infinity) {d : Decimal}
    (h : F.IsCoarsest x.ordinal d) : x.IsShortest d.chars.length d.value := by
  have hvalue : x.value = F.magnitude x.ordinal := by
    rw [value, hsign, if_neg Bool.false_ne_true]
  have hnonzero : 0 < x.value := by
    rw [hvalue, ← F.magnitude_zero]
    exact F.strictMono_magnitude hpos
  have hdigits := F.digits_pos hpos h.reads
  -- A rational that rounds to the number is a decimal.
  have hdecimal : ∀ {k : Nat} {r : ℚ}, HasDigits k r → x.IsNearest r →
      ∃ d' : Decimal, d'.digits < 10 ^ k ∧ d'.value = r ∧ F.nearestDecimal d' = x.ordinal := by
    intro k r hr hnearest
    obtain ⟨d', hd', rfl⟩ := Decimal.exists_of_hasDigits hr (hnearest.pos hnonzero)
    exact ⟨d', hd', rfl, (isNearest_decimal_iff hsign hpos hfinite).mp hnearest⟩
  refine ⟨(isNearest_decimal_iff hsign hpos hfinite).mpr h.reads, d.hasDigits_value,
    fun k hk r hr hnearest => ?_, fun r hr hnearest => ?_⟩
  · obtain ⟨d', hd', -, hreads⟩ := hdecimal hr hnearest
    have hle := h.pow_le_digits hpos hreads (Decimal.pow_le_digits hk hdigits)
    omega
  · obtain ⟨d', hd', rfl, hreads⟩ := hdecimal hr hnearest
    have hlength : 0 < d.chars.length := Nat.length_toDigits_pos
    have hn := Decimal.pow_le_digits (n := d.chars.length - 1) (by omega) hdigits
    rw [hvalue]
    refine h.abs_sub_le hF hpos hfinite hreads hn ?_
    rwa [Nat.sub_add_cancel hlength]

/-- **The decimal that is found is a shortest one.** -/
theorem isShortest_shortest (hF : F.Regular) {x : Binary F} (hpos : 0 < x.ordinal)
    (hfinite : x.ordinal < F.infinity) (tie : Tie) :
    let d := F.shortest tie x.ordinal
    x.IsShortest d.chars.length (if x.negative then -d.value else d.value) := by
  intro d
  have hd := F.isCoarsest_shortest hpos hfinite tie
  cases hsign : x.negative with
  | false => exact isShortest_of_isCoarsest hF hsign hpos hfinite hd
  | true =>
      have hopposite : x.opposite.negative = false := by rw [opposite, hsign, Bool.not_true]
      have h := isShortest_of_isCoarsest (x := x.opposite) hF hopposite hpos hfinite hd
      rw [if_pos rfl, ← opposite_opposite x]
      exact h.opposite

end Binary

end RecordQuery
