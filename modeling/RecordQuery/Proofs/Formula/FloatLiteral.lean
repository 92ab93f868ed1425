import RecordQuery.Proofs.Formula.Equality
import RecordQuery.Proofs.Number.Notation

/-!
# Float Literals in Formulas

A finite float literal is written with a shortest decimal of its number. The decimal is in
positional notation if the number is within two bounds and in scientific notation otherwise. The
bounds are the numbers nearest to two powers of ten, and both powers are their own shortest
decimals. So the number is within the bounds just when its decimal is between the powers, and
that is told by the place of the leading digit.

## Main results

* `Literal.compile_float` — how a float literal is written;
* `Literal.pow_le_shortest_iff` — a bound on the number is a bound on its decimal.
-/

namespace RecordQuery

-- Powers of natural numbers are the core ones, whatever else is imported.
attribute [local instance (high)] instPowNat

namespace Literal

open Numeral

/-! ### The bounds of positional notation -/

/-- A power of ten that is the shortest decimal of its nearest number is no greater than the
shortest decimal of another number just when its nearest number is no greater. -/
theorem pow_le_shortest_iff {e : ℤ} {bound : Nat}
    (hbound : Format.double.nearestDecimal ⟨1, e⟩ = bound)
    (hown : Format.double.shortest .up bound = ⟨1, e⟩) {ordinal : Nat}
    (hfinite : ordinal ≤ Format.double.infinity) :
    (10 : ℚ) ^ e ≤ (Format.double.shortest .up ordinal).value ↔ bound ≤ ordinal := by
  have hreads := Format.double.nearestDecimal_shortest hfinite .up
  rw [← Decimal.value_one]
  constructor
  · intro h
    have hmono := Format.double.nearestDecimal_mono h
    rwa [hbound, hreads] at hmono
  · intro h
    by_contra hlt
    have hmono := Format.double.nearestDecimal_mono (not_le.mp hlt).le
    rw [hbound, hreads] at hmono
    obtain rfl := Nat.le_antisymm h hmono
    rw [hown] at hlt
    exact hlt le_rfl

/-- The least number in positional notation. -/
def leastPositional : Binary64 := .ofOrdinal 0x3eb0c6f7a0b5ed8d (by decide)

/-- The least number above it in scientific notation. -/
def boundPositional : Binary64 := .ofOrdinal 0x444b1ae4d6e2ef50 (by decide)

/-- The bounds are the numbers nearest to two powers of ten. -/
theorem nearestDecimal_bounds :
    Format.double.nearestDecimal ⟨1, -6⟩ = leastPositional.ordinal ∧
      Format.double.nearestDecimal ⟨1, 21⟩ = boundPositional.ordinal := by
  decide +kernel

/-- Both powers of ten are their own shortest decimals. -/
theorem shortest_bounds :
    Format.double.shortest .up leastPositional.ordinal = ⟨1, -6⟩ ∧
      Format.double.shortest .up boundPositional.ordinal = ⟨1, 21⟩ := by
  decide +kernel

theorem isNearest_leastPositional : leastPositional.IsNearest (1 / 10 ^ 6) := by
  have hvalue : (⟨1, -6⟩ : Decimal).value = 1 / 10 ^ 6 := by
    rw [Decimal.value_one]
    norm_num
  rw [← hvalue]
  exact (Binary.isNearest_decimal_iff rfl (by decide) (by decide)).mpr nearestDecimal_bounds.1

theorem isNearest_boundPositional : boundPositional.IsNearest (10 ^ 21) := by
  have hvalue : (⟨1, 21⟩ : Decimal).value = 10 ^ 21 := by
    rw [Decimal.value_one]
    norm_num
  rw [← hvalue]
  exact (Binary.isNearest_decimal_iff rfl (by decide) (by decide)).mpr nearestDecimal_bounds.2

/-- The notation of a decimal is told by the ordinal that it is written for. -/
theorem decimal_shortest {ordinal : Nat} (hpos : 0 < ordinal)
    (hfinite : ordinal < Format.double.infinity) :
    let d := Format.double.shortest .up ordinal
    formulaFloats.decimal d =
      if leastPositional.ordinal ≤ ordinal ∧ ordinal < boundPositional.ordinal then d.positional []
      else d.scientific ['+'] := by
  intro d
  have hdigits := Format.digits_pos hpos (Format.double.nearestDecimal_shortest hfinite.le .up)
  have hleast := pow_le_shortest_iff nearestDecimal_bounds.1 shortest_bounds.1 hfinite.le
  have hbound := pow_le_shortest_iff nearestDecimal_bounds.2 shortest_bounds.2 hfinite.le
  rw [← Decimal.le_leading_iff hdigits] at hleast hbound
  have hrange : (formulaFloats.positionalFrom ≤ d.leading ∧
      d.leading < formulaFloats.positionalUntil) ↔
        (leastPositional.ordinal ≤ ordinal ∧ ordinal < boundPositional.ordinal) := by
    rw [← hleast, ← Nat.not_le, ← hbound, not_le]
    rfl
  rw [Layout.decimal, if_congr hrange rfl rfl]
  rfl

/-! ### The text of a literal -/

/-- The text of a finite float literal. -/
theorem compile_float_eq {x : Binary64} (h : x.isFinite = true) :
    (Expr.literal (.float x)).compile.result = .ok (String.ofList (formulaFloats.chars x)) := by
  rw [Expr.compile, compile, if_pos h, Layout.render, if_pos h]
  rfl

/-- Numbers other than zero are written with their shortest decimals. -/
theorem chars_of_pos {x : Binary64} (hpos : 0 < x.ordinal) :
    formulaFloats.chars x = if x.negative
      then '-' :: formulaFloats.decimal (Format.double.shortest .up x.ordinal)
      else formulaFloats.decimal (Format.double.shortest .up x.ordinal) := by
  have hzero : x.isZero = false := beq_eq_false_iff_ne.mpr hpos.ne'
  rw [Layout.chars, hzero, if_neg Bool.false_ne_true, Layout.magnitude,
    show formulaFloats.tie = .up from rfl]
  cases x.negative with
  | false => rw [if_neg Bool.false_ne_true, if_neg Bool.false_ne_true, List.nil_append]
  | true => rw [if_pos rfl, if_pos rfl, List.singleton_append]

/-- Numbers other than zero are written as the values of their shortest decimals. -/
theorem value_chars_of_pos {x : Binary64} (hpos : 0 < x.ordinal) :
    let d := Format.double.shortest .up x.ordinal
    Numeral.value (formulaFloats.chars x) = if x.negative then -d.value else d.value := by
  have hzero : x.isZero = false := beq_eq_false_iff_ne.mpr hpos.ne'
  rw [formulaFloats.value_chars, Layout.shown, hzero, if_neg Bool.false_ne_true]
  rfl

/-- Zero is written without its sign. -/
theorem chars_of_zero {x : Binary64} (h : x.ordinal = 0) : formulaFloats.chars x = ['0'] := by
  rw [Layout.chars, show x.isZero = true from beq_iff_eq.mpr h, if_pos rfl]
  rfl

/-- **Two finite float literals are written alike just when they are equal.** -/
theorem compile_float_eq_iff {x y : Binary64} (hx : x.isFinite = true) (hy : y.isFinite = true) :
    (Expr.literal (.float y)).compile.result = (Expr.literal (.float x)).compile.result ↔
      x.same y = true := by
  constructor
  · intro h
    rw [compile_float_eq hx, compile_float_eq hy, Except.ok.injEq, String.ofList_inj] at h
    exact formulaFloats.same_of_value_eq hx hy (congrArg value h.symm)
  · intro h
    have hliteral : (Literal.float x).same (.float y) = true := h
    rw [Expr.compile, Expr.compile, compile_eq_of_same hliteral]

/-- A number is zero when its exact value is. -/
theorem value_eq_zero_iff {F : Format} (x : Binary F) : x.value = 0 ↔ x.ordinal = 0 := by
  rw [← abs_eq_zero, x.abs_value, ← F.magnitude_zero]
  exact F.strictMono_magnitude.injective.eq_iff

/-- **How a float literal is written.** A finite float literal compiles. Zero of either sign is
written `0`. Any other number is written as a shortest decimal: its exact value rounds to the
number, no value of fewer digits does, and none of as many digits that does is closer. After the
sign the text is positional if the number is at least the one nearest to `1e-6` and less than the
one nearest to `1e21`, and scientific otherwise. Finite literals have one text just when they are
equal as numbers. -/
theorem compile_float {x : Binary64} (hfinite : x.isFinite = true) :
    ∃ text, (Expr.literal (.float x)).compile.result = .ok text ∧
      (x.value = 0 → text = "0") ∧
      (x.value ≠ 0 →
        (∃ digits, x.IsShortest digits (Numeral.value text.toList)) ∧
        ∃ body, text.toList = (if x.negative then '-' :: body else body) ∧
          ∃ least bound : Binary64, least.IsNearest (1 / 10 ^ 6) ∧ bound.IsNearest (10 ^ 21) ∧
            (IsPositional body ↔ least.value ≤ |x.value| ∧ |x.value| < bound.value) ∧
            (IsScientific body ↔ ¬ (least.value ≤ |x.value| ∧ |x.value| < bound.value))) ∧
      ∀ y : Binary64, y.isFinite = true →
        ((Expr.literal (.float y)).compile.result = .ok text ↔ x.same y = true) := by
  have hlt : x.ordinal < Format.double.infinity := of_decide_eq_true hfinite
  have htext := compile_float_eq hfinite
  refine ⟨_, htext, fun hzero => ?_, fun hne => ?_, fun y hy => ?_⟩
  · rw [chars_of_zero ((value_eq_zero_iff x).mp hzero)]
  · have hpos : 0 < x.ordinal := Nat.pos_of_ne_zero fun h => hne ((value_eq_zero_iff x).mpr h)
    have hfound := Format.double.isCoarsest_shortest hpos hlt .up
    have hdigits := Format.digits_pos hpos hfound.reads
    have hshortest := Binary.isShortest_shortest Format.regular_double hpos hlt .up
    have hnotation := decimal_shortest hpos hlt
    rw [String.toList_ofList, value_chars_of_pos hpos, x.abs_value]
    refine ⟨⟨_, hshortest⟩, _, chars_of_pos hpos, leastPositional, boundPositional,
      isNearest_leastPositional, isNearest_boundPositional, ?_⟩
    have hrange : (leastPositional.value ≤ Format.double.magnitude x.ordinal ∧
        Format.double.magnitude x.ordinal < boundPositional.value) ↔
          (leastPositional.ordinal ≤ x.ordinal ∧ x.ordinal < boundPositional.ordinal) :=
      and_congr Format.double.strictMono_magnitude.le_iff_le
        Format.double.strictMono_magnitude.lt_iff_lt
    rw [hrange, hnotation]
    split
    · next hwithin =>
      have hpositional := Decimal.isPositional_positional hdigits hfound.digits_mod_ne
      exact ⟨iff_of_true hpositional hwithin,
        iff_of_false hpositional.not_isScientific (not_not.mpr hwithin)⟩
    · next hbeyond =>
      have hscientific := Decimal.isScientific_scientific hdigits hfound.digits_mod_ne
      exact ⟨iff_of_false (fun h => h.not_isScientific hscientific) hbeyond,
        iff_of_true hscientific hbeyond⟩
  · rw [← htext]
    exact compile_float_eq_iff hfinite hy

/-- The least positive number: its exact value has 751 digits, and it is written with one. -/
theorem compile_float_least :
    let x : Binary64 := .ofBits 1
    x.isFinite = true ∧ (Expr.literal (.float x)).compile.result = .ok "5e-324" ∧
      (∃ digits, x.IsShortest digits (Numeral.value "5e-324".toList)) ∧
      IsScientific "5e-324".toList := by
  intro x
  have hfinite : x.isFinite = true := by decide
  have hne : x.value ≠ 0 := fun h => absurd ((value_eq_zero_iff x).mp h) (by decide)
  have hresult : (Expr.literal (.float x)).compile.result = .ok "5e-324" := by decide +kernel
  obtain ⟨text, htext, -, hshape, -⟩ := compile_float hfinite
  obtain rfl : "5e-324" = text := Except.ok.inj (hresult.symm.trans htext)
  exact ⟨hfinite, hresult, (hshape hne).1, ⟨'5', [], '-', ['3', '2', '4'], rfl, rfl, by decide,
    .inl rfl, .inr rfl, isWhole_toDigits 324⟩⟩

end Literal

end RecordQuery
