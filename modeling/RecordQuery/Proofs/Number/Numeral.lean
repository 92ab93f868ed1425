import Mathlib.Data.List.TakeWhile
import Mathlib.Tactic.Linarith
import RecordQuery.Number.Layout
import RecordQuery.Proofs.Number.ReadBack

/-!
# Numerals and the Numbers They Stand For

`Numeral.value` reads a numeral as an exact number: a sign, digits with a point among them,
and a signed exponent. However a `Layout` places the digits of a decimal, the numeral stands
for that decimal. A written number therefore reads back, since its shortest decimal does,
and no layout writes two different numbers alike.

## Main results

* `Numeral.value_toString` — a written integer stands for itself;
* `Layout.magnitude_decimal` — a written decimal stands for itself;
* `Layout.value_chars` — a written number stands for its shortest decimal, with its sign;
* `Layout.same_of_value_eq` — finite numbers whose numerals stand for one number are equal.
-/

namespace RecordQuery

namespace Numeral

/-! ### Reading numerals -/

/-- The number that digits with a point among them stand for. -/
def mantissa (cs : List Char) : ℚ :=
  let fraction := (cs.dropWhile (· != '.')).tail
  Nat.ofDigitChars 10 (cs.takeWhile (· != '.') ++ fraction) 0 / 10 ^ fraction.length

/-- The integer that digits after a sign stand for, if there is a sign. -/
def exponent : List Char → ℤ
  | '-' :: cs => -(Nat.ofDigitChars 10 cs 0 : ℤ)
  | '+' :: cs => Nat.ofDigitChars 10 cs 0
  | cs => Nat.ofDigitChars 10 cs 0

/-- The number that a numeral without a sign stands for. -/
def magnitude (cs : List Char) : ℚ :=
  mantissa (cs.takeWhile (· != 'e')) * 10 ^ exponent (cs.dropWhile (· != 'e')).tail

/-- **The number that a numeral stands for.** -/
def value : List Char → ℚ
  | '-' :: cs => -magnitude cs
  | cs => magnitude cs

/-- Whether every character is a digit. -/
def Digits (cs : List Char) : Prop := ∀ c ∈ cs, c.isDigit = true

/-- Whether a character may stand in a numeral. -/
def isMark (c : Char) : Bool := c.isDigit || c == '-' || c == '+' || c == '.' || c == 'e'

/-- Whether every character may stand in a numeral. -/
def Marks (cs : List Char) : Prop := ∀ c ∈ cs, isMark c = true

instance (cs : List Char) : Decidable (Marks cs) :=
  decidable_of_iff (cs.all isMark = true) List.all_eq_true

theorem Digits.append {cs ds : List Char} (hc : Digits cs) (hd : Digits ds) :
    Digits (cs ++ ds) := by
  intro c hmem
  rcases List.mem_append.mp hmem with h | h
  · exact hc c h
  · exact hd c h

/-- Digits may stand in a numeral. -/
theorem Digits.marks {cs : List Char} (h : Digits cs) : Marks cs := by
  intro c hmem
  simp [isMark, h c hmem]

theorem Marks.append {cs ds : List Char} (hc : Marks cs) (hd : Marks ds) : Marks (cs ++ ds) := by
  intro c hmem
  rcases List.mem_append.mp hmem with h | h
  · exact hc c h
  · exact hd c h

theorem Marks.cons {c : Char} {cs : List Char} (hc : isMark c = true) (h : Marks cs) :
    Marks (c :: cs) := by
  intro d hmem
  rcases List.mem_cons.mp hmem with rfl | hd
  · exact hc
  · exact h d hd

/-- The digits of a natural number are digits. -/
theorem digits_toDigits (n : Nat) : Digits (Nat.toDigits 10 n) := by
  intro c hmem
  exact Nat.isDigit_of_mem_toDigits (by decide) (by decide) hmem

/-- Zeros are digits. -/
theorem digits_replicate (n : Nat) : Digits (List.replicate n '0') := by
  intro c hmem
  rw [List.eq_of_mem_replicate hmem]
  rfl

/-- A zero is a digit. -/
theorem digits_zero : Digits ['0'] := digits_replicate 1

/-- A character that is no digit is none of the digits. -/
theorem Digits.not_mem {cs : List Char} (h : Digits cs) {c : Char} (hc : c.isDigit = false) :
    c ∉ cs := by
  intro hmem
  rw [h c hmem] at hc
  cases hc

/-- The characters of a text differ from any that is not among them. -/
theorem bne_of_not_mem {cs : List Char} {c : Char} (h : c ∉ cs) : ∀ d ∈ cs, (d != c) = true := by
  intro d hd
  rw [bne_iff_ne]
  rintro rfl
  exact h hd

/-- Scanning for a character that does not occur reads everything. -/
theorem takeWhile_ne_of_not_mem {cs : List Char} {c : Char} (h : c ∉ cs) :
    cs.takeWhile (· != c) = cs ∧ cs.dropWhile (· != c) = [] :=
  ⟨List.takeWhile_eq_self_iff.mpr (bne_of_not_mem h),
    List.dropWhile_eq_nil_iff.mpr (bne_of_not_mem h)⟩

/-- Scanning for a character stops where it first occurs. -/
theorem takeWhile_ne_append {cs : List Char} {c : Char} (h : c ∉ cs) (ds : List Char) :
    (cs ++ c :: ds).takeWhile (· != c) = cs ∧
      ((cs ++ c :: ds).dropWhile (· != c)).tail = ds := by
  have hall := bne_of_not_mem h
  simp [List.takeWhile_append_of_pos hall, List.dropWhile_append_of_pos hall]

/-- Digits without a point stand for a natural number. -/
theorem mantissa_digits {cs : List Char} (h : Digits cs) :
    mantissa cs = Nat.ofDigitChars 10 cs 0 := by
  obtain ⟨htake, hdrop⟩ := takeWhile_ne_of_not_mem (h.not_mem (show '.'.isDigit = false from rfl))
  simp [mantissa, htake, hdrop]

/-- Digits after a point count as many powers of ten less. -/
theorem mantissa_point {whole : List Char} (h : Digits whole) (fraction : List Char) :
    mantissa (whole ++ '.' :: fraction) =
      Nat.ofDigitChars 10 (whole ++ fraction) 0 / 10 ^ fraction.length := by
  obtain ⟨htake, hdrop⟩ :=
    takeWhile_ne_append (h.not_mem (show '.'.isDigit = false from rfl)) fraction
  simp [mantissa, htake, hdrop]

/-- Digits without a sign stand for a natural number. -/
theorem exponent_digits {cs : List Char} (h : Digits cs) :
    exponent cs = Nat.ofDigitChars 10 cs 0 := by
  unfold exponent
  split
  · cases h '-' List.mem_cons_self
  · cases h '+' List.mem_cons_self
  · rfl

/-- Digits with a point after some of them hold no exponent. -/
theorem not_mem_point {whole fraction : List Char} (hw : Digits whole) (hf : Digits fraction) :
    'e' ∉ whole ++ '.' :: fraction := by
  rw [List.mem_append, List.mem_cons]
  rintro (h | h | h)
  · exact hw.not_mem rfl h
  · exact absurd h (by decide)
  · exact hf.not_mem rfl h

/-- A numeral without an exponent. -/
theorem magnitude_of_not_mem {cs : List Char} (h : 'e' ∉ cs) : magnitude cs = mantissa cs := by
  obtain ⟨htake, hdrop⟩ := takeWhile_ne_of_not_mem h
  simp [magnitude, htake, hdrop, exponent]

/-- A numeral of digits alone. -/
theorem magnitude_digits {cs : List Char} (h : Digits cs) :
    magnitude cs = Nat.ofDigitChars 10 cs 0 := by
  rw [magnitude_of_not_mem (h.not_mem rfl), mantissa_digits h]

/-- A numeral of digits and a point. -/
theorem magnitude_point {whole fraction : List Char} (hw : Digits whole) (hf : Digits fraction) :
    magnitude (whole ++ '.' :: fraction) =
      Nat.ofDigitChars 10 (whole ++ fraction) 0 / 10 ^ fraction.length := by
  rw [magnitude_of_not_mem (not_mem_point hw hf), mantissa_point hw]

/-- A numeral with an exponent. -/
theorem magnitude_exponent {cs : List Char} (h : 'e' ∉ cs) (es : List Char) :
    magnitude (cs ++ 'e' :: es) = mantissa cs * 10 ^ exponent es := by
  obtain ⟨htake, hdrop⟩ := takeWhile_ne_append h es
  rw [magnitude, htake, hdrop]

/-- A numeral that starts with a digit has no sign. -/
theorem value_of_digit {c : Char} (hc : c.isDigit = true) (cs : List Char) :
    value (c :: cs) = magnitude (c :: cs) := by
  unfold value
  split
  · next heq =>
      cases heq
      cases hc
  · rfl

/-! ### Written integers -/

/-- An integer is written with its digits, after a sign if it is negative. -/
theorem toList_toString (n : Int) :
    (toString n).toList =
      if n < 0 then '-' :: Nat.toDigits 10 n.natAbs else Nat.toDigits 10 n.natAbs := by
  rw [show toString n = n.repr from rfl, Int.repr_eq_if]
  by_cases hneg : n < 0
  · have habs : (-n).toNat = n.natAbs := by omega
    rw [if_neg (by omega), if_pos hneg, habs, String.toList_append, Nat.toList_repr]
    rfl
  · have habs : n.toNat = n.natAbs := by omega
    rw [if_pos (by omega), if_neg hneg, habs, Nat.toList_repr]

/-- A written integer is made of the marks of numerals. -/
theorem marks_toString (n : Int) : Marks (toString n).toList := by
  have hdigits := (digits_toDigits n.natAbs).marks
  rw [toList_toString]
  split
  · exact .cons rfl hdigits
  · exact hdigits

/-- A written natural number starts with a digit. -/
theorem exists_toDigits_eq_cons (n : Nat) :
    ∃ digit others, Nat.toDigits 10 n = digit :: others ∧ digit.isDigit = true := by
  obtain ⟨digit, others, h⟩ := List.exists_cons_of_ne_nil (@Nat.toDigits_ne_nil n 10)
  refine ⟨digit, others, h, digits_toDigits n digit ?_⟩
  rw [h]
  exact List.mem_cons_self

/-- A written integer starts with a digit or a minus sign. -/
theorem exists_toString_eq_cons (n : Int) :
    ∃ first others, (toString n).toList = first :: others ∧
      (first.isDigit = true ∨ first = '-') := by
  obtain ⟨digit, others, h, hdigit⟩ := exists_toDigits_eq_cons n.natAbs
  rw [toList_toString, h]
  split
  · exact ⟨'-', _, rfl, Or.inr rfl⟩
  · exact ⟨digit, _, rfl, Or.inl hdigit⟩

/-- **A written integer stands for itself.** -/
theorem value_toString (n : Int) : value (toString n).toList = n := by
  have hmagnitude := magnitude_digits (digits_toDigits n.natAbs)
  rw [Nat.ofDigitChars_ten_toDigits, Nat.cast_natAbs] at hmagnitude
  rw [toList_toString]
  by_cases hneg : n < 0
  · rw [if_pos hneg, value, hmagnitude, abs_of_neg hneg]
    push_cast
    ring
  · obtain ⟨digit, others, h, hdigit⟩ := exists_toDigits_eq_cons n.natAbs
    rw [if_neg hneg, h, value_of_digit hdigit, ← h, hmagnitude, abs_of_nonneg (by omega)]

end Numeral

/-! ### Written decimals -/

namespace Decimal

/-- The digits of a decimal are digits. -/
theorem digits_chars (d : Decimal) : Numeral.Digits d.chars := Numeral.digits_toDigits _

/-- A decimal has a first digit. -/
theorem exists_chars_eq_cons (d : Decimal) :
    ∃ digit others, d.chars = digit :: others ∧ digit.isDigit = true :=
  Numeral.exists_toDigits_eq_cons _

/-- The digits stand for the count of the decimal. -/
theorem ofDigitChars_chars (d : Decimal) : Nat.ofDigitChars 10 d.chars 0 = d.digits :=
  Nat.ofDigitChars_ten_toDigits

/-- The exponent of the leading digit is that of the last one and one more for each other
digit. -/
theorem leading_add_one (d : Decimal) : d.leading + 1 = d.exponent + d.chars.length := by
  obtain ⟨digit, others, h, _⟩ := d.exists_chars_eq_cons
  rw [leading, h, List.length_cons]
  omega

/-- A decimal whose digits end at the point or after it. -/
theorem value_of_exponent_neg {d : Decimal} {places : Nat} (h : d.exponent = -places) :
    d.value = d.digits / 10 ^ places := by
  rw [value, h, zpow_neg, zpow_natCast, div_eq_mul_inv]

/-- A whole number: the zeros after the digits are the power of ten. -/
theorem magnitude_whole {d : Decimal} {zeros : Nat} (hzeros : d.exponent = zeros)
    {whole : List Char} (hwhole : whole = [] ∨ whole = ['.', '0']) :
    Numeral.magnitude (d.chars ++ List.replicate zeros '0' ++ whole) = d.value := by
  have hplain := d.digits_chars.append (Numeral.digits_replicate zeros)
  have hcount : Nat.ofDigitChars 10 (d.chars ++ List.replicate zeros '0') 0 =
      10 ^ zeros * d.digits := by
    rw [Nat.ofDigitChars_append, ofDigitChars_chars, Nat.ofDigitChars_replicate_zero]
  have hvalue : d.value = ((10 ^ zeros * d.digits : Nat) : ℚ) := by
    rw [value, hzeros, zpow_natCast]
    push_cast
    ring
  rw [hvalue]
  rcases hwhole with rfl | rfl
  · rw [List.append_nil, Numeral.magnitude_digits hplain, hcount]
  · have hmagnitude := Numeral.magnitude_point hplain (Numeral.digits_replicate 1)
    rw [Nat.ofDigitChars_append, hcount, Nat.ofDigitChars_replicate_zero,
      List.length_replicate] at hmagnitude
    refine hmagnitude.trans ?_
    push_cast
    field_simp

/-- The point stands among the digits, as many of them after it as the exponent says. -/
theorem magnitude_point_within {d : Decimal} {before : Nat}
    (h : d.exponent + d.chars.length = before) (hneg : d.exponent < 0) :
    Numeral.magnitude (d.chars.take before ++ '.' :: d.chars.drop before) = d.value := by
  have htake : Numeral.Digits (d.chars.take before) := fun c hmem =>
    d.digits_chars c (List.mem_of_mem_take hmem)
  have hdrop : Numeral.Digits (d.chars.drop before) := fun c hmem =>
    d.digits_chars c (List.mem_of_mem_drop hmem)
  have hexp : d.exponent = -((d.chars.drop before).length : ℤ) := by
    rw [List.length_drop]
    omega
  rw [Numeral.magnitude_point htake hdrop, List.take_append_drop, ofDigitChars_chars,
    value_of_exponent_neg hexp]

/-- The point stands before the digits, with zeros between them. -/
theorem magnitude_point_before {d : Decimal} {zeros : Nat}
    (h : d.exponent = -((zeros + d.chars.length : Nat) : ℤ)) :
    Numeral.magnitude ('0' :: '.' :: (List.replicate zeros '0' ++ d.chars)) = d.value := by
  have hfraction := (Numeral.digits_replicate zeros).append d.digits_chars
  have hcount : Nat.ofDigitChars 10 (['0'] ++ (List.replicate zeros '0' ++ d.chars)) 0 =
      d.digits := by
    rw [← List.replicate_one, Nat.ofDigitChars_append, Nat.ofDigitChars_append,
      Nat.ofDigitChars_replicate_zero, Nat.ofDigitChars_replicate_zero, Nat.mul_zero,
      ofDigitChars_chars]
  have hmagnitude := Numeral.magnitude_point Numeral.digits_zero hfraction
  rw [hcount, List.length_append, List.length_replicate] at hmagnitude
  rw [value_of_exponent_neg h]
  exact hmagnitude

/-- Digits with zeros up to the point stand for the decimal. -/
theorem magnitude_positional (d : Decimal) {whole : List Char}
    (hwhole : whole = [] ∨ whole = ['.', '0']) :
    Numeral.magnitude (d.positional whole) = d.value := by
  have hleading := d.leading_add_one
  rw [positional]
  by_cases hint : 0 ≤ d.exponent
  · rw [if_pos hint]
    exact magnitude_whole (Int.toNat_of_nonneg hint).symm hwhole
  · rw [if_neg hint]
    by_cases hpoint : 0 ≤ d.leading
    · rw [if_pos hpoint]
      exact magnitude_point_within (by omega) (by omega)
    · rw [if_neg hpoint]
      exact magnitude_point_before (by omega)

/-- The exponent of a scientific decimal is that of its leading digit. -/
theorem exponent_scientific (d : Decimal) {plus : List Char}
    (hplus : plus = [] ∨ plus = ['+']) :
    Numeral.exponent (if d.leading < 0 then '-' :: Nat.toDigits 10 d.leading.natAbs
      else plus ++ Nat.toDigits 10 d.leading.natAbs) = d.leading := by
  split
  · rw [Numeral.exponent, Nat.ofDigitChars_ten_toDigits]
    omega
  · rcases hplus with rfl | rfl
    · rw [List.nil_append, Numeral.exponent_digits (Numeral.digits_toDigits _),
        Nat.ofDigitChars_ten_toDigits]
      omega
    · rw [List.cons_append, List.nil_append, Numeral.exponent, Nat.ofDigitChars_ten_toDigits]
      omega

/-- One digit before the point and an exponent stand for the decimal. -/
theorem magnitude_scientific (d : Decimal) {plus : List Char}
    (hplus : plus = [] ∨ plus = ['+']) :
    Numeral.magnitude (d.scientific plus) = d.value := by
  have hdigits := d.digits_chars
  have hleading := d.leading_add_one
  have hcount := d.ofDigitChars_chars
  have hexponent := d.exponent_scientific hplus
  rw [scientific]
  cases hchars : d.chars with
  | nil => exact absurd hchars Nat.toDigits_ne_nil
  | cons digit others =>
      rw [hchars] at hdigits hcount hleading
      have hfirst : Numeral.Digits [digit] := fun c hmem => by
        rw [List.mem_singleton.mp hmem]
        exact hdigits digit List.mem_cons_self
      cases others with
      | nil =>
          have hexp : d.exponent = d.leading := by
            rw [List.length_singleton] at hleading
            omega
          rw [Numeral.magnitude_exponent (hfirst.not_mem rfl), hexponent,
            Numeral.mantissa_digits hfirst, hcount, value, hexp]
      | cons second others =>
          have hothers : Numeral.Digits (second :: others) := fun c hmem =>
            hdigits c (List.mem_cons_of_mem _ hmem)
          have he := Numeral.not_mem_point hfirst hothers
          have hexp : d.exponent = d.leading - ((second :: others).length : ℤ) := by
            rw [List.length_cons] at hleading
            omega
          have hmantissa := Numeral.mantissa_point hfirst (second :: others)
          rw [List.singleton_append] at he
          rw [List.singleton_append, List.singleton_append, hcount] at hmantissa
          rw [Numeral.magnitude_exponent he, hexponent, hmantissa, value, hexp,
            zpow_sub₀ (by norm_num), zpow_natCast]
          ring

/-- A positional decimal is made of the marks of numerals. -/
theorem marks_positional (d : Decimal) {whole : List Char} (hwhole : Numeral.Marks whole) :
    Numeral.Marks (d.positional whole) := by
  have hdigits := d.digits_chars
  rw [positional]
  split
  · exact (hdigits.append (Numeral.digits_replicate _)).marks.append hwhole
  · split
    · refine Numeral.Marks.append (fun c hmem => ?_) (.cons rfl fun c hmem => ?_)
      · exact hdigits.marks c (List.mem_of_mem_take hmem)
      · exact hdigits.marks c (List.mem_of_mem_drop hmem)
    · exact .cons rfl (.cons rfl ((Numeral.digits_replicate _).append hdigits).marks)

/-- A scientific decimal is made of the marks of numerals. -/
theorem marks_scientific (d : Decimal) {plus : List Char} (hplus : Numeral.Marks plus) :
    Numeral.Marks (d.scientific plus) := by
  have hdigits := d.digits_chars
  have hexponent := (Numeral.digits_toDigits d.leading.natAbs).marks
  rw [scientific]
  refine Numeral.Marks.append ?_ (.cons rfl ?_)
  · cases hchars : d.chars with
    | nil => exact fun c hmem => absurd hmem List.not_mem_nil
    | cons digit others =>
        rw [hchars] at hdigits
        cases others with
        | nil => exact hdigits.marks
        | cons second others =>
            refine .cons (hdigits.marks digit List.mem_cons_self) (.cons rfl fun c hmem => ?_)
            exact hdigits.marks c (List.mem_cons_of_mem _ hmem)
  · split
    · exact .cons rfl hexponent
    · exact hplus.append hexponent

/-- A positional decimal starts with a digit. -/
theorem exists_positional_eq_cons (d : Decimal) (whole : List Char) :
    ∃ digit others, d.positional whole = digit :: others ∧ digit.isDigit = true := by
  obtain ⟨digit, others, hchars, hdigit⟩ := d.exists_chars_eq_cons
  rw [positional, hchars]
  split
  · exact ⟨digit, _, rfl, hdigit⟩
  · split
    · exact ⟨digit, _, rfl, hdigit⟩
    · exact ⟨'0', _, rfl, rfl⟩

/-- A scientific decimal starts with a digit. -/
theorem exists_scientific_eq_cons (d : Decimal) (plus : List Char) :
    ∃ digit others, d.scientific plus = digit :: others ∧ digit.isDigit = true := by
  obtain ⟨digit, others, hchars, hdigit⟩ := d.exists_chars_eq_cons
  rw [scientific, hchars]
  cases others with
  | nil => exact ⟨digit, _, rfl, hdigit⟩
  | cons second others => exact ⟨digit, _, rfl, hdigit⟩

end Decimal

/-! ### Written numbers -/

namespace Layout

variable (layout : Layout)

/-- **A written decimal stands for itself**, however it is laid out. -/
theorem magnitude_decimal (d : Decimal) :
    Numeral.magnitude (layout.decimal d) = d.value := by
  rw [decimal]
  split
  · refine d.magnitude_positional ?_
    split
    · exact Or.inr rfl
    · exact Or.inl rfl
  · refine d.magnitude_scientific ?_
    split
    · exact Or.inr rfl
    · exact Or.inl rfl

/-- A written decimal is made of the marks of numerals. -/
theorem marks_decimal (d : Decimal) : Numeral.Marks (layout.decimal d) := by
  rw [decimal]
  split
  · refine d.marks_positional ?_
    split <;> decide
  · refine d.marks_scientific ?_
    split <;> decide

/-- A written decimal starts with a digit. -/
theorem exists_decimal_eq_cons (d : Decimal) :
    ∃ digit others, layout.decimal d = digit :: others ∧ digit.isDigit = true := by
  rw [decimal]
  split
  · exact d.exists_positional_eq_cons _
  · exact d.exists_scientific_eq_cons _

variable {F : Format}

/-- The decimal that is written for a number, its sign aside. -/
def shown (x : Binary F) : Decimal :=
  if x.isZero then ⟨0, 0⟩ else F.shortest layout.tie x.ordinal

/-- The digits of a written number and what stands among them. -/
def unsigned (x : Binary F) : List Char :=
  if x.isZero then '0' :: (if layout.keepsPoint then ['.', '0'] else [])
  else layout.magnitude F x.ordinal

/-- A written number is its digits, after a sign or not. -/
theorem chars_eq (x : Binary F) :
    layout.chars x =
      if x.negative && (layout.signsZero || !x.isZero) then '-' :: layout.unsigned x
      else layout.unsigned x := by
  rw [chars, unsigned]
  cases x.isZero <;> cases x.negative <;> cases layout.signsZero <;> rfl

/-- The digits of a number stand for the decimal that is written for it. -/
theorem magnitude_unsigned (x : Binary F) :
    Numeral.magnitude (layout.unsigned x) = (layout.shown x).value := by
  rw [unsigned, shown]
  cases x.isZero with
  | false => exact layout.magnitude_decimal _
  | true =>
      have hzero := Numeral.digits_replicate 1
      rw [if_pos rfl, if_pos rfl, Decimal.value_zero]
      cases layout.keepsPoint with
      | false => exact (Numeral.magnitude_digits hzero).trans Nat.cast_zero
      | true =>
          refine (Numeral.magnitude_point hzero hzero).trans ?_
          rw [Nat.ofDigitChars_append, Nat.ofDigitChars_replicate_zero,
            Nat.ofDigitChars_replicate_zero, Nat.mul_zero, Nat.cast_zero, zero_div]

/-- The digits of a number start with a digit. -/
theorem exists_unsigned_eq_cons (x : Binary F) :
    ∃ digit others, layout.unsigned x = digit :: others ∧ digit.isDigit = true := by
  rw [unsigned]
  cases x.isZero with
  | false => exact layout.exists_decimal_eq_cons _
  | true => exact ⟨'0', _, rfl, rfl⟩

/-- A written number is made of the marks of numerals. -/
theorem marks_chars (x : Binary F) : Numeral.Marks (layout.chars x) := by
  have hunsigned : Numeral.Marks (layout.unsigned x) := by
    rw [unsigned]
    cases x.isZero with
    | false => exact layout.marks_decimal _
    | true =>
        refine .cons rfl ?_
        split <;> decide
  rw [chars_eq]
  split
  · exact .cons rfl hunsigned
  · exact hunsigned

/-- A written number starts with a digit or a minus sign. -/
theorem exists_chars_eq_cons (x : Binary F) :
    ∃ first others, layout.chars x = first :: others ∧ (first.isDigit = true ∨ first = '-') := by
  obtain ⟨digit, others, hunsigned, hdigit⟩ := layout.exists_unsigned_eq_cons x
  rw [chars_eq, hunsigned]
  split
  · exact ⟨'-', _, rfl, Or.inr rfl⟩
  · exact ⟨digit, _, rfl, Or.inl hdigit⟩

/-- The decimal that is written for a finite number rounds to it. -/
theorem nearestDecimal_shown {x : Binary F} (h : x.isFinite = true) :
    F.nearestDecimal (layout.shown x) = x.ordinal := by
  rw [shown]
  split
  · next hzero => rw [beq_iff_eq.mp hzero, F.nearestDecimal_zero]
  · exact F.nearestDecimal_shortest (Nat.le_of_lt (of_decide_eq_true h)) _

/-- Only zero is written as a decimal of no value. -/
theorem isZero_of_shown_value_eq_zero {x : Binary F} (hx : x.isFinite = true)
    (h : (layout.shown x).value = 0) : x.isZero = true := by
  refine beq_iff_eq.mpr ?_
  rw [← layout.nearestDecimal_shown hx, ← F.nearestDecimal_zero]
  exact F.nearestDecimal_congr (h.trans Decimal.value_zero.symm)

/-- **A written number stands for its shortest decimal**, with its sign. -/
theorem value_chars (x : Binary F) :
    Numeral.value (layout.chars x) =
      if x.negative then -(layout.shown x).value else (layout.shown x).value := by
  obtain ⟨digit, others, hunsigned, hdigit⟩ := layout.exists_unsigned_eq_cons x
  have hmagnitude := layout.magnitude_unsigned x
  rw [hunsigned] at hmagnitude
  rw [chars_eq, hunsigned]
  cases hnegative : x.negative with
  | false =>
      rw [Bool.false_and, if_neg Bool.false_ne_true, if_neg Bool.false_ne_true,
        Numeral.value_of_digit hdigit, hmagnitude]
  | true =>
      rw [Bool.true_and, if_pos rfl]
      split
      · rw [Numeral.value, hmagnitude]
      · next hplain =>
          -- Only zero is written without its sign.
          have hzero : x.isZero = true := by
            cases hz : x.isZero with
            | true => rfl
            | false => simp [hz] at hplain
          rw [Numeral.value_of_digit hdigit, hmagnitude, shown, if_pos hzero, Decimal.value_zero,
            neg_zero]

/-- **No layout writes two numbers alike**: finite numbers whose numerals stand for one number
are equal. -/
theorem same_of_value_eq {x y : Binary F} (hx : x.isFinite = true) (hy : y.isFinite = true)
    (h : Numeral.value (layout.chars x) = Numeral.value (layout.chars y)) : x.same y = true := by
  rw [value_chars, value_chars] at h
  have hxpos := (layout.shown x).value_nonneg
  have hypos := (layout.shown y).value_nonneg
  have hvalue : (layout.shown x).value = (layout.shown y).value := by
    revert h
    split <;> split <;> intro h <;> linarith
  have hordinal : x.ordinal = y.ordinal := by
    rw [← layout.nearestDecimal_shown hx, ← layout.nearestDecimal_shown hy]
    exact F.nearestDecimal_congr hvalue
  have hsign : x.isZero = true ∨ x.negative = y.negative := by
    by_cases hzero : (layout.shown x).value = 0
    · exact Or.inl (layout.isZero_of_shown_value_eq_zero hx hzero)
    · right
      rw [← hvalue] at h
      by_contra hsigns
      cases hxs : x.negative <;> cases hys : y.negative <;> rw [hxs, hys] at h hsigns
      · exact hsigns rfl
      · exact hzero (self_eq_neg.mp h)
      · exact hzero (neg_eq_self.mp h)
      · exact hsigns rfl
  obtain ⟨hxn, -⟩ := (Binary.isFinite_iff x).mp hx
  obtain ⟨hyn, -⟩ := (Binary.isFinite_iff y).mp hy
  rcases hsign with hzero | hnegative
  · simp [Binary.same, hxn, hyn, hordinal, hzero]
  · simp [Binary.same, hxn, hyn, hordinal, hnegative]

end Layout

end RecordQuery
