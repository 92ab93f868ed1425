import Mathlib.Data.Rat.Cast.Order
import Mathlib.Tactic.FieldSimp
import Mathlib.Tactic.Positivity
import RecordQuery.Number.Decimal
import RecordQuery.Proofs.Number.Nearest

/-!
# Shortest Decimals Read Back

A decimal has an exact value, and the number nearest to it depends on that value alone. The
shortest decimal of a magnitude is looked for among the decimals that round to it, and the
last resort is the magnitude itself: so whatever is found rounds to the magnitude.

## Main results

* `Format.nearestDecimal_congr` — decimals of one value have one nearest number;
* `Format.nearestDecimal_shortest` — the shortest decimal of a magnitude reads back.
-/

namespace RecordQuery

-- Powers of natural numbers are the core ones, whatever else is imported.
attribute [local instance (high)] instPowNat

/-- The exact value of a decimal. -/
def Decimal.value (d : Decimal) : ℚ := d.digits * (10 : ℚ) ^ d.exponent

/-- No digits have no value. -/
@[simp] theorem Decimal.value_zero : (⟨0, 0⟩ : Decimal).value = 0 := by
  rw [value, Nat.cast_zero, zero_mul]

/-- No decimal is negative. -/
theorem Decimal.value_nonneg (d : Decimal) : 0 ≤ d.value :=
  mul_nonneg (Nat.cast_nonneg _) (zpow_nonneg (by norm_num) _)

namespace Format

variable (F : Format)

/-- The nearest number to a decimal is the nearest to a fraction of units, and the fraction
has the value of the decimal. -/
theorem exists_nearestDecimal_eq (d : Decimal) :
    ∃ num den, 0 < den ∧ F.nearestDecimal d = F.nearest num den ∧
      (num : ℚ) = d.value * 2 ^ F.scale * den := by
  obtain ⟨digits, exponent⟩ := d
  cases exponent with
  | ofNat e =>
      refine ⟨digits * 10 ^ e * 2 ^ F.scale, 1, Nat.one_pos, rfl, ?_⟩
      simp [Decimal.value]
  | negSucc e =>
      refine ⟨digits * 2 ^ F.scale, 10 ^ (e + 1), Nat.pow_pos (by decide), rfl, ?_⟩
      have hten : (10 : ℚ) ^ (e + 1) ≠ 0 := by positivity
      simp only [Decimal.value, zpow_negSucc]
      push_cast
      field_simp

/-- **Decimals of one value** have one nearest number. -/
theorem nearestDecimal_congr {d d' : Decimal} (h : d.value = d'.value) :
    F.nearestDecimal d = F.nearestDecimal d' := by
  obtain ⟨num, den, hden, hd, hvalue⟩ := F.exists_nearestDecimal_eq d
  obtain ⟨num', den', hden', hd', hvalue'⟩ := F.exists_nearestDecimal_eq d'
  rw [hd, hd']
  refine F.nearest_congr hden hden' ?_
  have hcross : (num : ℚ) * den' = num' * den := by
    rw [hvalue, hvalue', h]
    ring
  exact_mod_cast hcross

/-- No digits round to zero. -/
theorem nearestDecimal_zero : F.nearestDecimal ⟨0, 0⟩ = 0 := by
  have hzero : 0 * 10 ^ 0 * 2 ^ F.scale = 0 := by rw [Nat.zero_mul, Nat.zero_mul]
  calc F.nearestDecimal ⟨0, 0⟩ = F.nearest (0 * 10 ^ 0 * 2 ^ F.scale) 1 := rfl
    _ = 0 := by rw [hzero, F.nearest_zero]

/-- A point of a grid is a decimal, and rounding it is rounding the point. -/
theorem nearestDecimal_gridPoint (digits place : Nat) :
    F.nearestDecimal ⟨digits, (place : Int) - F.scale⟩ =
      F.nearest (digits * 10 ^ place) (5 ^ F.scale) := by
  obtain ⟨num, den, hden, hnearest, hvalue⟩ :=
    F.exists_nearestDecimal_eq ⟨digits, (place : Int) - F.scale⟩
  rw [hnearest]
  refine F.nearest_congr hden (Nat.pow_pos (by decide)) ?_
  have hten : (10 : ℚ) ^ ((place : Int) - F.scale) = 10 ^ place / (2 ^ F.scale * 5 ^ F.scale) := by
    rw [zpow_sub₀ (by norm_num), zpow_natCast, zpow_natCast, ← mul_pow]
    norm_num
  have hcross : (num : ℚ) * 5 ^ F.scale = digits * 10 ^ place * den := by
    rw [hvalue, Decimal.value, hten]
    field_simp
  exact_mod_cast hcross

/-- The point of a grid that is chosen rounds to the magnitude. -/
theorem readsBack_of_gridPoint? {tie : Tie} {ordinal place digits : Nat}
    (h : F.gridPoint? tie ordinal place = some digits) :
    F.readsBack ordinal place digits = true := by
  simp only [gridPoint?] at h
  generalize hlow : F.decimalUnits ordinal / 10 ^ place = low at h
  cases hbelow : F.readsBack ordinal place low <;>
    cases habove : F.readsBack ordinal place (low + 1) <;>
    simp only [hbelow, habove, Option.some.injEq, reduceCtorEq] at h
  · rwa [← h]
  · rwa [← h]
  · split at h
    · rwa [← h]
    · rwa [← h]

/-- Whatever the grid tried first, the decimal that is found rounds to the magnitude. -/
theorem nearestDecimal_coarsest {ordinal : Nat} (h : ordinal ≤ F.infinity) (tie : Tie)
    (place : Nat) : F.nearestDecimal (F.coarsest tie ordinal place) = ordinal := by
  induction place with
  | zero =>
      have hfinest := F.nearestDecimal_gridPoint (F.decimalUnits ordinal) 0
      rw [Nat.pow_zero, Nat.mul_one, Int.natCast_zero, Int.zero_sub] at hfinest
      rw [coarsest, hfinest]
      calc F.nearest (F.decimalUnits ordinal) (5 ^ F.scale)
          = F.nearest (F.units ordinal * 5 ^ F.scale) (1 * 5 ^ F.scale) := by
            rw [decimalUnits, Nat.one_mul]
        _ = F.nearest (F.units ordinal) 1 :=
            F.nearest_mul_right _ _ (Nat.pow_pos (by decide))
        _ = ordinal := F.nearest_units h
  | succ place ih =>
      rw [coarsest]
      cases hpoint : F.gridPoint? tie ordinal (place + 1) with
      | none => exact ih
      | some digits =>
          have hback := F.readsBack_of_gridPoint? hpoint
          rw [readsBack, beq_iff_eq] at hback
          have hgrid := F.nearestDecimal_gridPoint digits (place + 1)
          rw [hback] at hgrid
          exact_mod_cast hgrid

/-- **The shortest decimal reads back.** -/
theorem nearestDecimal_shortest {ordinal : Nat} (h : ordinal ≤ F.infinity) (tie : Tie) :
    F.nearestDecimal (F.shortest tie ordinal) = ordinal :=
  F.nearestDecimal_coarsest h tie _

end Format

end RecordQuery
