import Mathlib.Tactic.Ring
import RecordQuery.Number.Binary

/-!
# Rounding to the Nearest Magnitude

The magnitudes of a format grow with their ordinals, and `Format.floor` leads back from a
magnitude to its ordinal. Rounding a fraction of units therefore keeps every finite
magnitude, and it depends on the fraction alone and not on how it is written.

## Main results

* `Format.floor_units`, `Format.units_lt_units_succ` — ordinals and magnitudes correspond in
  order;
* `Format.nearest_units` — a magnitude is the nearest to itself;
* `Format.nearest_congr` — equal fractions have one nearest magnitude.
-/

namespace RecordQuery

-- Powers of natural numbers are the core ones, whatever else is imported.
attribute [local instance (high)] instPowNat

namespace Format

variable (F : Format)

/-- The magnitude in a block and at a fraction within it. -/
theorem units_block {block fraction : Nat} (h : fraction < 2 ^ F.fractionBits) :
    F.units (block * 2 ^ F.fractionBits + fraction) =
      if block = 0 then fraction else (2 ^ F.fractionBits + fraction) * 2 ^ (block - 1) := by
  have hpos : 0 < 2 ^ F.fractionBits := Nat.pow_pos (by decide)
  have hdiv : (block * 2 ^ F.fractionBits + fraction) / 2 ^ F.fractionBits = block := by
    rw [Nat.mul_comm, Nat.mul_add_div hpos, Nat.div_eq_of_lt h, Nat.add_zero]
  have hmod : (block * 2 ^ F.fractionBits + fraction) % 2 ^ F.fractionBits = fraction := by
    rw [Nat.mul_comm, Nat.mul_add_mod, Nat.mod_eq_of_lt h]
  simp only [units, hdiv, hmod]

/-- Every ordinal has a block and a fraction. -/
theorem exists_block (ordinal : Nat) :
    ∃ block fraction, fraction < 2 ^ F.fractionBits ∧
      ordinal = block * 2 ^ F.fractionBits + fraction := by
  have hpos : 0 < 2 ^ F.fractionBits := Nat.pow_pos (by decide)
  refine ⟨ordinal / 2 ^ F.fractionBits, ordinal % 2 ^ F.fractionBits, Nat.mod_lt _ hpos, ?_⟩
  rw [Nat.mul_comm]
  exact (Nat.div_add_mod _ _).symm

/-- **Magnitudes lead back to their ordinals.** -/
theorem floor_units (ordinal : Nat) : F.floor (F.units ordinal) = ordinal := by
  obtain ⟨block, fraction, hfraction, rfl⟩ := F.exists_block ordinal
  rw [units_block F hfraction]
  cases block with
  | zero =>
      have hlog : fraction.log2 - F.fractionBits = 0 := by
        rcases Nat.eq_zero_or_pos fraction with rfl | hpos
        · simp
        · have := (Nat.log2_lt (by omega)).mpr hfraction
          omega
      simp only [if_true, floor, hlog, Nat.zero_mul, Nat.zero_add, Nat.pow_zero, Nat.div_one]
  | succ k =>
      have hscale : 0 < 2 ^ k := Nat.pow_pos (by decide)
      have hne : (2 ^ F.fractionBits + fraction) * 2 ^ k ≠ 0 := by
        have : 0 < (2 ^ F.fractionBits + fraction) * 2 ^ k :=
          Nat.mul_pos (Nat.add_pos_left (Nat.pow_pos (by decide)) _) hscale
        omega
      have hlog : ((2 ^ F.fractionBits + fraction) * 2 ^ k).log2 = F.fractionBits + k := by
        refine (Nat.log2_eq_iff hne).mpr ⟨?_, ?_⟩
        · rw [Nat.pow_add]
          exact Nat.mul_le_mul_right _ (Nat.le_add_right _ _)
        · rw [show F.fractionBits + k + 1 = F.fractionBits + 1 + k by omega, Nat.pow_add]
          refine Nat.mul_lt_mul_of_pos_right ?_ hscale
          rw [Nat.pow_succ]
          omega
      have hshift : F.fractionBits + k - F.fractionBits = k := by omega
      simp only [Nat.succ_ne_zero, if_false, Nat.add_sub_cancel, floor, hlog, hshift,
        Nat.mul_div_cancel _ hscale]
      ring

/-- A magnitude is less than the next one. -/
theorem units_lt_units_succ (ordinal : Nat) : F.units ordinal < F.units (ordinal + 1) := by
  obtain ⟨block, fraction, hfraction, rfl⟩ := F.exists_block ordinal
  rw [units_block F hfraction]
  by_cases hlast : fraction + 1 < 2 ^ F.fractionBits
  · rw [Nat.add_assoc, units_block F hlast]
    cases block with
    | zero => simp
    | succ k =>
        simp only [Nat.succ_ne_zero, if_false]
        exact Nat.mul_lt_mul_of_pos_right (by omega) (Nat.pow_pos (by decide))
  · -- The next ordinal is the first of the next block.
    have hnext : block * 2 ^ F.fractionBits + fraction + 1 =
        (block + 1) * 2 ^ F.fractionBits + 0 := by
      rw [Nat.add_mul, Nat.one_mul]
      omega
    rw [hnext, units_block F (Nat.pow_pos (by decide))]
    cases block with
    | zero =>
        simp only [if_true, Nat.zero_add, Nat.succ_ne_zero, if_false, Nat.add_zero,
          Nat.sub_self, Nat.pow_zero, Nat.mul_one]
        exact hfraction
    | succ k =>
        simp only [Nat.succ_ne_zero, if_false, Nat.add_zero, Nat.add_sub_cancel]
        rw [Nat.pow_succ 2 k, ← Nat.mul_assoc, Nat.mul_right_comm]
        refine Nat.mul_lt_mul_of_pos_right ?_ (Nat.pow_pos (by decide))
        omega

/-- How a fraction is expanded does not matter for its nearest magnitude. -/
theorem nearest_mul_right (num den : Nat) {k : Nat} (hk : 0 < k) :
    F.nearest (num * k) (den * k) = F.nearest num den := by
  have hdiv : num * k / (den * k) = num / den := Nat.mul_div_mul_right num den hk
  simp only [nearest, hdiv]
  congr 1
  have hmiddle : ∀ s : Nat, s * (den * k) = s * den * k := fun s => by ring
  have hnum : 2 * (num * k) = 2 * num * k := by ring
  simp only [hmiddle, hnum, Nat.mul_lt_mul_right hk, Nat.mul_left_inj (Nat.ne_of_gt hk)]

/-- **Equal fractions have one nearest magnitude.** -/
theorem nearest_congr {num den num' den' : Nat} (hden : 0 < den) (hden' : 0 < den')
    (h : num * den' = num' * den) : F.nearest num den = F.nearest num' den' := by
  calc F.nearest num den
      = F.nearest (num * den') (den * den') := (F.nearest_mul_right num den hden').symm
    _ = F.nearest (num' * den) (den' * den) := by rw [h, Nat.mul_comm den den']
    _ = F.nearest num' den' := F.nearest_mul_right num' den' hden

/-- **A magnitude is the nearest to itself.** -/
theorem nearest_units {ordinal : Nat} (h : ordinal ≤ F.infinity) :
    F.nearest (F.units ordinal) 1 = ordinal := by
  have hnext := F.units_lt_units_succ ordinal
  simp only [nearest, Nat.div_one, floor_units, Nat.mul_one]
  rw [if_pos (Or.inl (by omega))]
  exact Nat.min_eq_right h

/-- Nothing rounds to zero. -/
theorem nearest_zero : F.nearest 0 1 = 0 := by
  have hzero : F.units 0 = 0 := by
    have h := @units_block F 0 0 (Nat.pow_pos (by decide))
    simpa using h
  have h := F.nearest_units (Nat.zero_le F.infinity)
  rwa [hzero] at h

end Format

end RecordQuery
