import Mathlib.Order.Monotone.Basic
import RecordQuery.Proofs.Number.ReadBack

/-!
# Rounding Intervals

Two neighbouring magnitudes lie a *gap* apart, and halfway between them the fractions that round
down end and those that round up begin. So rounding is monotone, and the fractions that round to
one ordinal are an interval around its magnitude.

## Main results

* `Format.units_succ` — the next magnitude is a gap further;
* `Format.nearest_le_iff` — which fractions round to an ordinal or one below it;
* `Format.nearestDecimal_mono` — a greater decimal rounds to no lesser ordinal.
-/

namespace RecordQuery

-- Powers of natural numbers are the core ones, whatever else is imported.
attribute [local instance (high)] instPowNat

namespace Format

variable (F : Format)

/-! ### Gaps between magnitudes -/

/-- The distance from a magnitude to the next one. -/
def gap (ordinal : Nat) : Nat := 2 ^ (ordinal / 2 ^ F.fractionBits - 1)

theorem gap_pos (ordinal : Nat) : 0 < F.gap ordinal := Nat.pow_pos (by decide)

/-- Gaps grow with the ordinals. -/
theorem gap_mono {a b : Nat} (h : a ≤ b) : F.gap a ≤ F.gap b :=
  Nat.pow_le_pow_right (by decide) (Nat.sub_le_sub_right (Nat.div_le_div_right h) 1)

/-- The gap within a block. -/
theorem gap_block {block fraction : Nat} (h : fraction < 2 ^ F.fractionBits) :
    F.gap (block * 2 ^ F.fractionBits + fraction) = 2 ^ (block - 1) := by
  rw [gap, Nat.mul_comm, Nat.mul_add_div (Nat.pow_pos (by decide)), Nat.div_eq_of_lt h,
    Nat.add_zero]

/-- **The next magnitude is a gap further.** -/
theorem units_succ (ordinal : Nat) : F.units (ordinal + 1) = F.units ordinal + F.gap ordinal := by
  obtain ⟨block, fraction, hfraction, rfl⟩ := F.exists_block ordinal
  rw [units_block F hfraction, gap_block F hfraction]
  by_cases hlast : fraction + 1 < 2 ^ F.fractionBits
  · rw [Nat.add_assoc, units_block F hlast]
    cases block with
    | zero => rfl
    | succ k =>
        simp only [Nat.succ_ne_zero, if_false, Nat.add_sub_cancel]
        ring
  · -- The next ordinal is the first of the next block.
    have hfull : 2 ^ F.fractionBits = fraction + 1 := by omega
    have hnext : block * 2 ^ F.fractionBits + fraction + 1 =
        (block + 1) * 2 ^ F.fractionBits + 0 := by
      rw [Nat.add_mul, Nat.one_mul]
      omega
    rw [hnext, units_block F (Nat.pow_pos (by decide)), hfull]
    cases block with
    | zero => simp
    | succ k =>
        simp only [Nat.succ_ne_zero, if_false, Nat.add_zero, Nat.add_sub_cancel]
        ring

/-- Magnitudes grow with their ordinals. -/
theorem strictMono_units : StrictMono F.units := strictMono_nat_of_lt_succ F.units_lt_units_succ

/-- A magnitude has fewer gaps than there are ordinals in two blocks. -/
theorem units_lt_mul_gap (ordinal : Nat) :
    F.units ordinal < 2 ^ (F.fractionBits + 1) * F.gap ordinal := by
  obtain ⟨block, fraction, hfraction, rfl⟩ := F.exists_block ordinal
  rw [units_block F hfraction, gap_block F hfraction, Nat.pow_succ]
  cases block with
  | zero =>
      rw [if_pos rfl, Nat.zero_sub, Nat.pow_zero]
      omega
  | succ k =>
      rw [if_neg k.succ_ne_zero, Nat.add_sub_cancel]
      exact Nat.mul_lt_mul_of_pos_right (by omega) (Nat.pow_pos (by decide))

/-- Above the lowest block a magnitude has at least as many gaps as there are ordinals in a
block. -/
theorem mul_gap_le_units {ordinal : Nat} (h : 2 ^ F.fractionBits ≤ ordinal) :
    2 ^ F.fractionBits * F.gap ordinal ≤ F.units ordinal := by
  obtain ⟨block, fraction, hfraction, rfl⟩ := F.exists_block ordinal
  rw [units_block F hfraction, gap_block F hfraction]
  cases block with
  | zero => omega
  | succ k =>
      rw [if_neg k.succ_ne_zero, Nat.add_sub_cancel]
      exact Nat.mul_le_mul_right _ (Nat.le_add_right _ _)

/-- In the lowest block a magnitude is its ordinal. -/
theorem units_of_lt {ordinal : Nat} (h : ordinal < 2 ^ F.fractionBits) :
    F.units ordinal = ordinal := by
  have hblock : F.units (0 * 2 ^ F.fractionBits + ordinal) = ordinal := F.units_block h
  rwa [Nat.zero_mul, Nat.zero_add] at hblock

/-- In the lowest block magnitudes lie one unit apart. -/
theorem gap_of_lt {ordinal : Nat} (h : ordinal < 2 ^ F.fractionBits) : F.gap ordinal = 1 := by
  rw [gap, Nat.div_eq_of_lt h, Nat.zero_sub, Nat.pow_zero]

@[simp] theorem units_zero : F.units 0 = 0 := F.units_of_lt (Nat.pow_pos (by decide))

/-- A gap is no greater than the magnitude before it. -/
theorem gap_le_units {ordinal : Nat} (h : 0 < ordinal) : F.gap ordinal ≤ F.units ordinal := by
  by_cases hlow : ordinal < 2 ^ F.fractionBits
  · rw [F.units_of_lt hlow, F.gap_of_lt hlow]
    exact h
  · calc F.gap ordinal ≤ 2 ^ F.fractionBits * F.gap ordinal :=
          Nat.le_mul_of_pos_left _ (Nat.pow_pos (by decide))
      _ ≤ F.units ordinal := F.mul_gap_le_units (Nat.le_of_not_lt hlow)

/-! ### The magnitudes around a count of units -/

/-- A count of units is at least the magnitude of its floor and less than the next one. -/
theorem units_floor_le_lt (count : Nat) :
    F.units (F.floor count) ≤ count ∧ count < F.units (F.floor count + 1) := by
  rw [units_succ]
  have hpos : 0 < 2 ^ F.fractionBits := Nat.pow_pos (by decide)
  by_cases hlow : count < 2 ^ F.fractionBits
  · have hlog : count.log2 - F.fractionBits = 0 := by
      rcases Nat.eq_zero_or_pos count with rfl | hcount
      · simp
      · have := (Nat.log2_lt (by omega)).mpr hlow
        omega
    have hfloor : F.floor count = count := by
      simp only [floor, hlog, Nat.zero_mul, Nat.zero_add, Nat.pow_zero, Nat.div_one]
    rw [hfloor, F.units_of_lt hlow, F.gap_of_lt hlow]
    omega
  · -- The leading bits of the count are a block of their own, and the others are cut off.
    have hne : count ≠ 0 := by omega
    have hlog : F.fractionBits ≤ count.log2 := (Nat.le_log2 hne).mpr (Nat.le_of_not_lt hlow)
    obtain ⟨k, hk⟩ := Nat.exists_eq_add_of_le hlog
    have hshift : count.log2 - F.fractionBits = k := by omega
    have hscale : 0 < 2 ^ k := Nat.pow_pos (by decide)
    have hleast : 2 ^ F.fractionBits ≤ count / 2 ^ k := by
      rw [Nat.le_div_iff_mul_le hscale, ← Nat.pow_add, ← hk]
      exact Nat.log2_self_le hne
    have hmost : count / 2 ^ k < 2 * 2 ^ F.fractionBits := by
      rw [Nat.div_lt_iff_lt_mul hscale, Nat.mul_assoc, ← Nat.pow_add, ← hk, Nat.mul_comm,
        ← Nat.pow_succ]
      exact Nat.lt_log2_self
    obtain ⟨fraction, hfraction⟩ := Nat.exists_eq_add_of_le hleast
    have hfloor : F.floor count = (k + 1) * 2 ^ F.fractionBits + fraction := by
      simp only [floor, hshift, hfraction]
      ring
    have hdiv := Nat.div_add_mod count (2 ^ k)
    have hmod := Nat.mod_lt count hscale
    rw [hfraction, Nat.mul_comm] at hdiv
    rw [hfloor, units_block F (by omega), gap_block F (by omega), if_neg k.succ_ne_zero,
      Nat.add_sub_cancel]
    omega

/-! ### Rounding is monotone -/

/-- Twice the point halfway between a magnitude and the next one. -/
def middle (ordinal : Nat) : Nat := F.units ordinal + F.units (ordinal + 1)

/-- **Which fractions round to an ordinal or one below it**: those up to halfway to the next
magnitude, and the point halfway belongs to the even ordinal. -/
theorem nearest_le_iff {num den ordinal : Nat} (hden : 0 < den) (h : ordinal < F.infinity) :
    F.nearest num den ≤ ordinal ↔
      2 * num < F.middle ordinal * den ∨
        (2 * num = F.middle ordinal * den ∧ ordinal % 2 = 0) := by
  obtain ⟨hfloor, hceil⟩ := F.units_floor_le_lt (num / den)
  rw [Nat.le_div_iff_mul_le hden] at hfloor
  rw [Nat.div_lt_iff_lt_mul hden] at hceil
  simp only [nearest]
  generalize F.floor (num / den) = low at hfloor hceil
  have hmul : ∀ {a b : Nat}, a ≤ b → F.units a * den ≤ F.units b * den := fun hab =>
    Nat.mul_le_mul_right _ (F.strictMono_units.monotone hab)
  have hmiddle : F.middle ordinal * den = F.units ordinal * den + F.units (ordinal + 1) * den :=
    Nat.add_mul _ _ _
  have hgap : F.units ordinal * den < F.units (ordinal + 1) * den :=
    Nat.mul_lt_mul_of_pos_right (F.units_lt_units_succ ordinal) hden
  rcases Nat.lt_trichotomy low ordinal with hlow | rfl | hlow
  · have hle := hmul (show low + 1 ≤ ordinal from hlow)
    refine ⟨fun _ => .inl (by omega), fun _ => Nat.le_trans (Nat.min_le_right _ _) ?_⟩
    split <;> omega
  · rw [show (F.units low + F.units (low + 1)) * den = F.middle low * den from rfl]
    split
    · next hround => exact iff_of_true (Nat.le_trans (Nat.min_le_right _ _) (Nat.le_refl _)) hround
    · next hround => exact iff_of_false (by omega) hround
  · have hle := hmul (show ordinal + 1 ≤ low from hlow)
    refine iff_of_false ?_ (by omega)
    split <;> omega

/-- A greater fraction rounds to no lesser ordinal. -/
theorem nearest_mono {num den num' den' : Nat} (hden : 0 < den) (hden' : 0 < den')
    (h : num * den' ≤ num' * den) : F.nearest num den ≤ F.nearest num' den' := by
  by_cases hfinite : F.nearest num' den' < F.infinity
  · -- Both fractions are compared with one halfway point, over a common denominator.
    rw [F.nearest_le_iff hden hfinite]
    have hround := (F.nearest_le_iff hden' hfinite).mp (Nat.le_refl _)
    generalize F.middle (F.nearest num' den') = m at hround ⊢
    have hscale : 2 * num * den' ≤ 2 * num' * den := by
      rw [Nat.mul_assoc, Nat.mul_assoc]
      exact Nat.mul_le_mul_left _ h
    have hswap : m * den' * den = m * den * den' := Nat.mul_right_comm _ _ _
    rcases hround with hlt | ⟨heq, heven⟩
    · left
      have hbound : 2 * num' * den < m * den' * den := Nat.mul_lt_mul_of_pos_right hlt hden
      rw [hswap] at hbound
      exact Nat.lt_of_mul_lt_mul_right (Nat.lt_of_le_of_lt hscale hbound)
    · rw [heq, hswap] at hscale
      rcases Nat.lt_or_eq_of_le (Nat.le_of_mul_le_mul_right hscale hden') with hlt | heq'
      · exact .inl hlt
      · exact .inr ⟨heq', heven⟩
  · exact Nat.le_trans (Nat.min_le_left _ _) (Nat.le_of_not_lt hfinite)

/-- **Which decimals round to an ordinal or one below it.** -/
theorem nearestDecimal_le_iff {d : Decimal} {ordinal : Nat} (h : ordinal < F.infinity) :
    F.nearestDecimal d ≤ ordinal ↔
      2 * (d.value * 2 ^ F.scale) < F.middle ordinal ∨
        (2 * (d.value * 2 ^ F.scale) = F.middle ordinal ∧ ordinal % 2 = 0) := by
  obtain ⟨num, den, hden, hnearest, hvalue⟩ := F.exists_nearestDecimal_eq d
  have hden' : (0 : ℚ) < den := by exact_mod_cast hden
  have hnum : (2 * num : ℚ) = 2 * (d.value * 2 ^ F.scale) * den := by
    rw [hvalue]
    ring
  rw [hnearest, F.nearest_le_iff hden h, ← mul_lt_mul_iff_left₀ hden', ← hnum,
    ← mul_left_inj' hden'.ne', ← hnum]
  norm_cast

/-- **A greater decimal rounds to no lesser ordinal.** -/
theorem nearestDecimal_mono {d d' : Decimal} (h : d.value ≤ d'.value) :
    F.nearestDecimal d ≤ F.nearestDecimal d' := by
  obtain ⟨num, den, hden, hd, hvalue⟩ := F.exists_nearestDecimal_eq d
  obtain ⟨num', den', hden', hd', hvalue'⟩ := F.exists_nearestDecimal_eq d'
  rw [hd, hd']
  refine F.nearest_mono hden hden' ?_
  have hcross : (num : ℚ) * den' ≤ num' * den := by
    rw [hvalue, hvalue']
    calc d.value * 2 ^ F.scale * den * den'
        = d.value * (2 ^ F.scale * den * den') := by ring
      _ ≤ d'.value * (2 ^ F.scale * den * den') :=
          mul_le_mul_of_nonneg_right h (by positivity)
      _ = d'.value * 2 ^ F.scale * den' * den := by ring
  exact_mod_cast hcross

/-- A decimal between two that round to one ordinal rounds to it as well. -/
theorem nearestDecimal_eq_of_between {a b c : Decimal} {ordinal : Nat}
    (ha : F.nearestDecimal a = ordinal) (hc : F.nearestDecimal c = ordinal)
    (hab : a.value ≤ b.value) (hbc : b.value ≤ c.value) : F.nearestDecimal b = ordinal :=
  Nat.le_antisymm (hc ▸ F.nearestDecimal_mono hbc) (ha ▸ F.nearestDecimal_mono hab)

end Format

end RecordQuery
