import RecordQuery.Proofs.Number.Numeral
import RecordQuery.Proofs.Number.Shortest

/-!
# Two Notations

A numeral without a sign is *positional* if it has no exponent: a whole number without needless
zeros in front, with digits after a point that do not end in zero or with no point at all. It is
*scientific* if it has one digit before the point, which is not zero, and a signed exponent. A
decimal whose digits do not end in zero is written in either notation, and the place of its
leading digit decides which.

## Main results

* `Decimal.isPositional_positional`, `Decimal.isScientific_scientific` — how a decimal looks;
* `Decimal.le_leading_iff` — the place of the leading digit from the value.
-/

namespace RecordQuery

-- Powers of natural numbers are the core ones, whatever else is imported.
attribute [local instance (high)] instPowNat

namespace Numeral

/-! ### Shapes -/

/-- Whether digits stand for a whole number and no needless zero is in front. -/
structure IsWhole (cs : List Char) : Prop where
  digits : Digits cs
  nonempty : cs ≠ []
  first : cs.head? = some '0' → cs = ['0']

/-- Whether nothing stands there, or a point and digits that do not end in zero. -/
def IsFraction (cs : List Char) : Prop :=
  cs = [] ∨ ∃ digits, cs = '.' :: digits ∧ Digits digits ∧ digits ≠ [] ∧
    digits.getLast? ≠ some '0'

/-- Whether a numeral has no exponent and no zeros at the end of its fraction. -/
def IsPositional (cs : List Char) : Prop :=
  ∃ whole fraction, cs = whole ++ fraction ∧ IsWhole whole ∧ IsFraction fraction

/-- Whether a numeral has one digit before the point, not zero, and a signed exponent. -/
def IsScientific (cs : List Char) : Prop :=
  ∃ first fraction sign exponent, cs = first :: (fraction ++ 'e' :: sign :: exponent) ∧
    first.isDigit = true ∧ first ≠ '0' ∧ IsFraction fraction ∧ (sign = '+' ∨ sign = '-') ∧
    IsWhole exponent

/-- A fraction holds no exponent. -/
theorem IsFraction.not_mem {cs : List Char} (h : IsFraction cs) : 'e' ∉ cs := by
  rcases h with rfl | ⟨digits, rfl, hdigits, -, -⟩
  · exact List.not_mem_nil
  · rw [List.mem_cons, not_or]
    exact ⟨by decide, hdigits.not_mem rfl⟩

/-- No numeral is in both notations. -/
theorem IsPositional.not_isScientific {cs : List Char} (h : IsPositional cs) :
    ¬ IsScientific cs := by
  rintro ⟨first, fraction, sign, exponent, rfl, -⟩
  obtain ⟨whole, fraction', heq, hwhole, hfraction⟩ := h
  have hmem : 'e' ∈ whole ++ fraction' := heq ▸ by simp
  rcases List.mem_append.mp hmem with hmem | hmem
  · exact hwhole.digits.not_mem rfl hmem
  · exact hfraction.not_mem hmem

/-! ### The digits of a natural number -/

/-- The digits of a number are those of its tens and the last one. -/
theorem toDigits_eq_append {n : Nat} (h : 10 ≤ n) :
    Nat.toDigits 10 n = Nat.toDigits 10 (n / 10) ++ [Nat.digitChar (n % 10)] := by
  have happend := Nat.toDigits_append_toDigits (b := 10) (n := n / 10) (d := n % 10) (by decide)
    (by omega) (by omega)
  rw [Nat.div_add_mod] at happend
  rw [← happend, Nat.toDigits_of_lt_base (Nat.mod_lt _ (by decide))]

/-- The last digit is the remainder by ten. -/
theorem getLast?_toDigits (n : Nat) :
    (Nat.toDigits 10 n).getLast? = some (Nat.digitChar (n % 10)) := by
  by_cases h : 10 ≤ n
  · rw [toDigits_eq_append h, List.getLast?_append, List.getLast?_singleton, Option.some_or]
  · have hlt : n < 10 := by omega
    rw [Nat.toDigits_of_lt_base hlt, Nat.mod_eq_of_lt hlt, List.getLast?_singleton]

/-- The first digit of a positive number is not zero. -/
theorem head?_toDigits_ne {n : Nat} (h : 0 < n) : (Nat.toDigits 10 n).head? ≠ some '0' := by
  induction n using Nat.strongRecOn with
  | ind n ih =>
      by_cases hten : 10 ≤ n
      · have htens := ih (n / 10) (by omega) (by omega)
        obtain ⟨first, others, hcons, -⟩ := exists_toDigits_eq_cons (n / 10)
        rw [toDigits_eq_append hten, hcons]
        rw [hcons] at htens
        exact htens
      · rw [Nat.toDigits_of_lt_base (Nat.lt_of_not_le hten), List.head?_cons, ne_eq,
          Option.some_inj, Nat.digitChar_eq_zero]
        omega

/-- The digits of a number are a whole number. -/
theorem isWhole_toDigits (n : Nat) : IsWhole (Nat.toDigits 10 n) where
  digits := digits_toDigits n
  nonempty := Nat.toDigits_ne_nil
  first h := by
    rcases Nat.eq_zero_or_pos n with rfl | hpos
    · rfl
    · exact absurd h (head?_toDigits_ne hpos)

end Numeral

namespace Decimal

open Numeral

variable {d : Decimal}

/-- A decimal of some digits does not start with zero. -/
theorem head?_chars_ne (hpos : 0 < d.digits) : d.chars.head? ≠ some '0' := head?_toDigits_ne hpos

/-- A decimal whose count is no multiple of ten does not end in zero. -/
theorem getLast?_chars_ne (hlast : d.digits % 10 ≠ 0) : d.chars.getLast? ≠ some '0' := by
  rw [chars, getLast?_toDigits, ne_eq, Option.some_inj, Nat.digitChar_eq_zero]
  exact hlast

/-- Digits that go on as long as those of the decimal are a whole number. -/
theorem isWhole_append (hpos : 0 < d.digits) {cs : List Char} (h : Digits cs) :
    IsWhole (d.chars ++ cs) where
  digits := d.digits_chars.append h
  nonempty := by
    rw [ne_eq, List.append_eq_nil_iff, not_and]
    exact fun hnil => absurd hnil Nat.toDigits_ne_nil
  first hfirst := by
    obtain ⟨first, others, hcons, -⟩ := d.exists_chars_eq_cons
    have hne := head?_chars_ne hpos
    rw [hcons] at hne hfirst
    exact absurd hfirst hne

/-- **A decimal in positional notation.** -/
theorem isPositional_positional (hpos : 0 < d.digits) (hlast : d.digits % 10 ≠ 0) :
    IsPositional (d.positional []) := by
  have hleading := d.leading_add_one
  have hend := getLast?_chars_ne hlast
  rw [positional]
  split
  · rw [List.append_nil]
    exact ⟨_, [], (List.append_nil _).symm, isWhole_append hpos (digits_replicate _), .inl rfl⟩
  · split
    · -- Some digits are before the point and some after it.
      have hbefore : d.leading.toNat + 1 < d.chars.length := by omega
      obtain ⟨first, others, hcons, -⟩ := d.exists_chars_eq_cons
      have hfirst := head?_chars_ne hpos
      refine ⟨_, _, rfl, ⟨fun c hc => d.digits_chars c (List.mem_of_mem_take hc), ?_, ?_⟩,
        .inr ⟨_, rfl, fun c hc => d.digits_chars c (List.mem_of_mem_drop hc), ?_, ?_⟩⟩
      · rw [hcons, List.take_succ_cons]
        exact List.cons_ne_nil _ _
      · rw [hcons] at hfirst
        rw [hcons, List.take_succ_cons]
        exact fun h => absurd h hfirst
      · exact List.ne_nil_of_length_pos (by rw [List.length_drop]; omega)
      · rwa [List.getLast?_drop, if_neg (by omega)]
    · refine ⟨['0'], _, rfl, ⟨digits_zero, List.cons_ne_nil _ _, fun _ => rfl⟩,
        .inr ⟨_, rfl, (digits_replicate _).append d.digits_chars, ?_, ?_⟩⟩
      · rw [ne_eq, List.append_eq_nil_iff, not_and]
        exact fun _ => Nat.toDigits_ne_nil
      · rw [chars, getLast?_toDigits] at hend
        rwa [List.getLast?_append, chars, getLast?_toDigits, Option.some_or]

/-- The digits after the first are a fraction. -/
theorem exists_scientific_eq (hlast : d.digits % 10 ≠ 0) {first : Char} {others : List Char}
    (hcons : d.chars = first :: others) (plus : List Char) :
    ∃ fraction, IsFraction fraction ∧ d.scientific plus = first :: (fraction ++
      'e' :: (if d.leading < 0 then '-' :: Nat.toDigits 10 d.leading.natAbs
        else plus ++ Nat.toDigits 10 d.leading.natAbs)) := by
  have hend := getLast?_chars_ne hlast
  have hdigits := d.digits_chars
  rw [hcons] at hend hdigits
  cases others with
  | nil => exact ⟨[], .inl rfl, by rw [scientific, hcons]; rfl⟩
  | cons second others =>
      rw [List.getLast?_cons_cons] at hend
      refine ⟨'.' :: second :: others, .inr ⟨_, rfl, ?_, List.cons_ne_nil _ _, hend⟩,
        by rw [scientific, hcons]; rfl⟩
      exact fun c hc => hdigits c (List.mem_cons_of_mem _ hc)

/-- **A decimal in scientific notation.** -/
theorem isScientific_scientific (hpos : 0 < d.digits) (hlast : d.digits % 10 ≠ 0) :
    IsScientific (d.scientific ['+']) := by
  have hfirst := head?_chars_ne hpos
  obtain ⟨first, others, hcons, hdigit⟩ := d.exists_chars_eq_cons
  have hne : first ≠ '0' := fun h => hfirst (by rw [hcons, List.head?_cons, h])
  obtain ⟨fraction, hfraction, heq⟩ := exists_scientific_eq hlast hcons ['+']
  have hwhole := isWhole_toDigits d.leading.natAbs
  rw [heq]
  split
  · exact ⟨first, fraction, '-', _, rfl, hdigit, hne, hfraction, .inr rfl, hwhole⟩
  · exact ⟨first, fraction, '+', _, rfl, hdigit, hne, hfraction, .inl rfl, hwhole⟩

/-- A power of ten, by its place. -/
theorem value_one (e : ℤ) : (⟨1, e⟩ : Decimal).value = (10 : ℚ) ^ e := by
  rw [value, Nat.cast_one, one_mul]

/-- A decimal is at least the power of ten at its leading digit, and less than the next one. -/
theorem zpow_leading_le_lt (hpos : 0 < d.digits) :
    (10 : ℚ) ^ d.leading ≤ d.value ∧ d.value < 10 ^ (d.leading + 1) := by
  have hleading := d.leading_add_one
  have hlength : 0 < d.chars.length := Nat.length_toDigits_pos
  obtain ⟨n, hn⟩ : ∃ n, d.chars.length = n + 1 := ⟨d.chars.length - 1, by omega⟩
  have hexponent : (0 : ℚ) < 10 ^ d.exponent := by positivity
  have hleast := pow_le_digits (d := d) (n := n) (by omega) hpos
  have hmost : d.digits < 10 ^ (n + 1) := by
    rw [← hn]
    exact (Nat.length_toDigits_le_iff (by decide) hlength).mp (Nat.le_refl _)
  have hpow : ∀ k : Nat, (10 : ℚ) ^ (d.exponent + k) = (10 ^ k : Nat) * 10 ^ d.exponent := by
    intro k
    rw [zpow_add₀ (by norm_num), zpow_natCast, mul_comm]
    push_cast
    rfl
  rw [show d.leading = d.exponent + (n : Nat) by omega,
    show d.exponent + (n : Nat) + 1 = d.exponent + ((n + 1 : Nat) : ℤ) by omega, hpow, hpow, value]
  refine ⟨mul_le_mul_of_nonneg_right ?_ hexponent.le, mul_lt_mul_of_pos_right ?_ hexponent⟩
  · exact_mod_cast hleast
  · exact_mod_cast hmost

/-- **The place of the leading digit from the value.** -/
theorem le_leading_iff (hpos : 0 < d.digits) {e : ℤ} :
    e ≤ d.leading ↔ (10 : ℚ) ^ e ≤ d.value := by
  obtain ⟨hle, hlt⟩ := zpow_leading_le_lt hpos
  constructor
  · exact fun h => (zpow_le_zpow_right₀ (by norm_num) h).trans hle
  · intro h
    have hpow := (zpow_lt_zpow_iff_right₀ (by norm_num)).mp (h.trans_lt hlt)
    omega

end Decimal

end RecordQuery
