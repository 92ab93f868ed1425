import RecordQuery.Proofs.Number.Shortest

/-!
# Decimals that Survive Widening

Two different decimals of few digits are far apart, compared with how large they are, and the
numbers of a format are close together. So only one decimal of few digits rounds to a number, and
it is the shortest decimal of the number if its digits do not end in zero. The shortest decimal
of a 32-bit number has nine digits at most, and every one of them rounds to a 64-bit number among
those that are close together.

## Main results

* `Decimal.lt_mul_sub` — decimals of few digits are far apart;
* `Format.shortest_nearestDecimal` — a decimal of few digits is the shortest one of its nearest
  number;
* `Format.shortest_widen` — the shortest decimal of a 32-bit number is that of the 64-bit one.
-/

namespace RecordQuery

-- Powers of natural numbers are the core ones, whatever else is imported.
attribute [local instance (high)] instPowNat

namespace Decimal

/-- A decimal whose count is no multiple of ten has no other value in a greater exponent. -/
theorem exponent_le_of_value_eq {d d' : Decimal} (h : d.value = d'.value)
    (hlast : d.digits % 10 ≠ 0) : d'.exponent ≤ d.exponent := by
  by_contra hlt
  obtain ⟨t, ht⟩ := Int.le.dest (show d.exponent + 1 ≤ d'.exponent by omega)
  have hshift := value_mul_pow d'.digits (t + 1) d.exponent
  rw [Nat.cast_succ, add_comm (t : ℤ), ← add_assoc, ht, ← show d.value = _ from h, value, value]
    at hshift
  have hexponent : (10 : ℚ) ^ d.exponent ≠ 0 := by positivity
  have hdigits : d'.digits * 10 ^ (t + 1) = d.digits := by
    exact_mod_cast (mul_left_inj' hexponent).mp hshift
  rw [Nat.pow_succ, ← Nat.mul_assoc] at hdigits
  omega

/-- **Decimals of one value are one decimal** if their counts are no multiples of ten. -/
theorem eq_of_value_eq {d d' : Decimal} (h : d.value = d'.value) (hlast : d.digits % 10 ≠ 0)
    (hlast' : d'.digits % 10 ≠ 0) : d = d' := by
  have hexponent := le_antisymm (exponent_le_of_value_eq h.symm hlast')
    (exponent_le_of_value_eq h hlast)
  obtain ⟨digits, e⟩ := d
  obtain ⟨digits', e'⟩ := d'
  obtain rfl : e = e' := hexponent
  have hne : (10 : ℚ) ^ e ≠ 0 := by positivity
  rw [value, value] at h
  have hdigits : digits = digits' := by exact_mod_cast (mul_left_inj' hne).mp h
  rw [hdigits]

/-- A decimal is a multiple of the power of ten at a lower place. -/
theorem exists_value_eq {d : Decimal} {e : ℤ} (h : e ≤ d.exponent) :
    ∃ count : Nat, d.value = count * (10 : ℚ) ^ e := by
  obtain ⟨t, ht⟩ := Int.le.dest h
  refine ⟨d.digits * 10 ^ t, ?_⟩
  have hshift := value_mul_pow d.digits t e
  rw [ht] at hshift
  rw [← show (⟨d.digits, d.exponent⟩ : Decimal).value = d.value from rfl, ← hshift, value]

/-- **Decimals of few digits are far apart**, compared with how large they are: their distance
is at least a unit in the last place of one of them. -/
theorem lt_mul_sub {d d' : Decimal} {n : Nat} (h : d.value < d'.value) (hfew : d.digits < 10 ^ n)
    (hfew' : d'.digits < 10 ^ n) : d.value < 10 ^ n * (d'.value - d.value) := by
  -- Both are multiples of the power of ten at the lower exponent, so they are that far apart.
  have hfar : ∀ e : ℤ, e ≤ d.exponent → e ≤ d'.exponent → (10 : ℚ) ^ e ≤ d'.value - d.value := by
    intro e he he'
    have hpos : (0 : ℚ) < 10 ^ e := by positivity
    obtain ⟨count, hcount⟩ := d.exists_value_eq he
    obtain ⟨count', hcount'⟩ := d'.exists_value_eq he'
    rw [hcount, hcount'] at h ⊢
    have hlt : count < count' := by exact_mod_cast (mul_lt_mul_iff_left₀ hpos).mp h
    have hstep : (count : ℚ) + 1 ≤ count' := by exact_mod_cast hlt
    calc (10 : ℚ) ^ e = (count + 1) * 10 ^ e - count * 10 ^ e := by ring
      _ ≤ count' * 10 ^ e - count * 10 ^ e :=
          sub_le_sub_right (mul_le_mul_of_nonneg_right hstep hpos.le) _
  -- The decimal of the lower exponent is less than so many of these powers.
  have hsmall : ∀ d : Decimal, d.digits < 10 ^ n → d.value < 10 ^ n * 10 ^ d.exponent := by
    intro d hd
    rw [value]
    refine mul_lt_mul_of_pos_right ?_ (by positivity)
    exact_mod_cast hd
  have hten : (0 : ℚ) < 10 ^ n := by positivity
  rcases le_total d.exponent d'.exponent with hle | hle
  · calc d.value < 10 ^ n * 10 ^ d.exponent := hsmall d hfew
      _ ≤ 10 ^ n * (d'.value - d.value) := mul_le_mul_of_nonneg_left (hfar _ le_rfl hle) hten.le
  · calc d.value < d'.value := h
      _ < 10 ^ n * 10 ^ d'.exponent := hsmall d' hfew'
      _ ≤ 10 ^ n * (d'.value - d.value) := mul_le_mul_of_nonneg_left (hfar _ hle le_rfl) hten.le

end Decimal

namespace Format

variable {F : Format}

/-- What lies between two magnitudes. -/
theorem magnitude_succ (ordinal : Nat) :
    F.magnitude (ordinal + 1) = F.magnitude ordinal + F.gap ordinal / 2 ^ F.scale := by
  rw [magnitude, magnitude, units_succ, Nat.cast_add, add_div]

/-- Of decimals that round to one ordinal above the lowest block, one is not much greater than
another. -/
theorem mul_sub_le_of_reads {ordinal : Nat} (hnormal : 2 ^ F.fractionBits ≤ ordinal)
    (hfinite : ordinal < F.infinity) {d d' : Decimal} (hd : F.nearestDecimal d = ordinal)
    (hd' : F.nearestDecimal d' = ordinal) :
    2 ^ F.fractionBits * (d'.value - d.value) ≤ 2 * d.value := by
  obtain ⟨below, rfl⟩ : ∃ below, ordinal = below + 1 :=
    ⟨ordinal - 1, by have := Nat.pow_pos (n := F.fractionBits) (show 0 < 2 by decide); omega⟩
  have hscale : (0 : ℚ) < 2 ^ F.scale := by positivity
  have hlow := F.le_two_mul_value (Nat.lt_of_succ_lt hfinite) hd
  have hhigh := F.two_mul_value_le hfinite hd'
  have hbelow := F.magnitude_nonneg below
  have hstep := F.magnitude_succ below
  have hstep' := F.magnitude_succ (below + 1)
  -- The gap before the magnitude is no greater than the one after it.
  have hgaps : (F.gap below : ℚ) / 2 ^ F.scale ≤ F.gap (below + 1) / 2 ^ F.scale := by
    refine div_le_div_of_nonneg_right ?_ hscale.le
    exact_mod_cast F.gap_mono (Nat.le_succ below)
  have hmany : 2 ^ F.fractionBits * (F.gap (below + 1) / 2 ^ F.scale : ℚ) ≤
      F.magnitude (below + 1) := by
    rw [mul_div_assoc', magnitude]
    refine div_le_div_of_nonneg_right ?_ hscale.le
    exact_mod_cast F.mul_gap_le_units hnormal
  have hdistance : d'.value - d.value ≤ F.gap (below + 1) / 2 ^ F.scale := by linarith
  calc (2 : ℚ) ^ F.fractionBits * (d'.value - d.value)
      ≤ 2 ^ F.fractionBits * (F.gap (below + 1) / 2 ^ F.scale) :=
        mul_le_mul_of_nonneg_left hdistance (by positivity)
    _ ≤ F.magnitude (below + 1) := hmany
    _ ≤ 2 * d.value := by linarith

/-- **A decimal of few digits is the shortest one of its nearest number**, if the digits do not
end in zero. -/
theorem shortest_nearestDecimal {d : Decimal} {n : Nat} (hfew : d.digits < 10 ^ n)
    (hclose : 2 * 10 ^ n ≤ 2 ^ F.fractionBits) (hlast : d.digits % 10 ≠ 0)
    (hnormal : 2 ^ F.fractionBits ≤ F.nearestDecimal d)
    (hfinite : F.nearestDecimal d < F.infinity) (tie : Tie) :
    F.shortest tie (F.nearestDecimal d) = d := by
  have hpos : 0 < F.nearestDecimal d :=
    Nat.lt_of_lt_of_le (Nat.pow_pos (by decide)) hnormal
  have hfound := F.isCoarsest_shortest hpos hfinite tie
  generalize F.shortest tie (F.nearestDecimal d) = d' at hfound
  have hfew' : d'.digits < 10 ^ n := by
    by_contra hmany
    exact absurd (hfound.pow_le_digits hpos rfl (Nat.le_of_not_lt hmany)) (Nat.not_le_of_lt hfew)
  have hcloseQ : (2 : ℚ) * 10 ^ n ≤ 2 ^ F.fractionBits := by exact_mod_cast hclose
  -- If one was greater, it would be too far away.
  have hnot : ∀ {a b : Decimal}, a.digits < 10 ^ n → b.digits < 10 ^ n →
      F.nearestDecimal a = F.nearestDecimal d → F.nearestDecimal b = F.nearestDecimal d →
      ¬ a.value < b.value := by
    intro a b ha hb hreads hreads' hlt
    have hfar := Decimal.lt_mul_sub hlt ha hb
    have hnear := F.mul_sub_le_of_reads hnormal hfinite hreads hreads'
    have hscaled := mul_le_mul_of_nonneg_right hcloseQ (sub_nonneg.mpr hlt.le)
    linarith
  refine Decimal.eq_of_value_eq (le_antisymm ?_ ?_) hfound.digits_mod_ne hlast
  · exact not_lt.mp (hnot hfew hfew' rfl hfound.reads)
  · exact not_lt.mp (hnot hfew' hfew hfound.reads rfl)

/-! ### From 32 bits to 64 -/

/-- A decimal that rounds to a 32-bit number rounds to a 64-bit number above the lowest block. -/
theorem nearestDecimal_double_of_single {ordinal : Nat} (hpos : 0 < ordinal)
    (hfinite : ordinal < single.infinity) {d : Decimal}
    (h : single.nearestDecimal d = ordinal) :
    2 ^ double.fractionBits ≤ double.nearestDecimal d ∧
      double.nearestDecimal d < double.infinity := by
  have hleast : 2 ^ double.fractionBits ≤ double.nearestDecimal ⟨1, -46⟩ := by decide +kernel
  have hmost : double.nearestDecimal ⟨1, 39⟩ < double.infinity := by decide +kernel
  obtain ⟨below, rfl⟩ : ∃ below, ordinal = below + 1 := ⟨ordinal - 1, by omega⟩
  have hlow := single.le_two_mul_value (Nat.lt_of_succ_lt hfinite) h
  have hhigh := single.two_mul_value_le hfinite h
  have hmono := single.strictMono_magnitude.monotone
  constructor
  · -- The least 32-bit number is large for 64 bits.
    refine hleast.trans (double.nearestDecimal_mono ?_)
    have hunit : single.magnitude 1 = 1 / 2 ^ 149 := by
      rw [magnitude, single.units_of_lt (by decide), Nat.cast_one]
      rfl
    have hone := hmono (show 1 ≤ below + 1 by omega)
    have hbelow := single.magnitude_nonneg below
    have hpower : (⟨1, -46⟩ : Decimal).value ≤ 1 / 2 ^ 149 / 2 := by
      norm_num [Decimal.value]
    linarith
  · -- The number after the greatest one is not.
    refine (double.nearestDecimal_mono ?_).trans_lt hmost
    have hinfinity : single.magnitude single.infinity ≤ 10 ^ 39 := by
      have hunits : single.units single.infinity ≤ 10 ^ 39 * 2 ^ 149 := by decide +kernel
      rw [magnitude, div_le_iff₀ (by positivity)]
      exact_mod_cast hunits
    have hlast := hmono (show below + 1 ≤ single.infinity from hfinite.le)
    have hnext := hmono (show below + 1 + 1 ≤ single.infinity from hfinite)
    have hpower : (⟨1, 39⟩ : Decimal).value = 10 ^ 39 := by
      norm_num [Decimal.value]
    linarith

/-- **The shortest decimal of a 32-bit number is that of the 64-bit number nearest to it.** -/
theorem shortest_widen {ordinal : Nat} (hpos : 0 < ordinal) (hfinite : ordinal < single.infinity)
    (tie tie' : Tie) :
    double.shortest tie' (double.nearestDecimal (single.shortest tie ordinal)) =
      single.shortest tie ordinal := by
  have hfound := single.isCoarsest_shortest hpos hfinite tie
  obtain ⟨hnormal, hbound⟩ := nearestDecimal_double_of_single hpos hfinite hfound.reads
  have hfew : (single.shortest tie ordinal).digits < 10 ^ 9 :=
    Nat.lt_of_lt_of_le (hfound.digits_lt hfinite) (by decide)
  exact double.shortest_nearestDecimal hfew (by decide) hfound.digits_mod_ne hnormal hbound tie'

end Format

end RecordQuery
