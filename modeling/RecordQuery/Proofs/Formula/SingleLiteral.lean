import RecordQuery.Formula.Helper
import RecordQuery.Proofs.Formula.FloatLiteral
import RecordQuery.Proofs.Number.Widen

/-!
# Literals of the 32-bit Format

A literal of the 32-bit format is held as the 64-bit number nearest to its own shortest decimal,
and only the 64-bit number is written. Its shortest decimal is the one it comes from, so the text
is that of the 32-bit number and reads back as that number.

## Main results

* `Literal.compile_single` — how a 32-bit literal is written.
-/

namespace RecordQuery

namespace Literal

/-- The 64-bit number that holds a 32-bit one is nearest to its shortest decimal, finite, and has
no other shortest decimal. -/
theorem widen_of_pos {x : Binary32} (hpos : 0 < x.ordinal)
    (hfinite : x.ordinal < Format.single.infinity) :
    let d := Format.single.shortest .up x.ordinal
    x.widen.negative = x.negative ∧ Format.double.nearestDecimal d = x.widen.ordinal ∧
      0 < x.widen.ordinal ∧ x.widen.ordinal < Format.double.infinity ∧
      Format.double.shortest .up x.widen.ordinal = d := by
  intro d
  have hnumber : x.isNaN = false := decide_eq_false (by omega)
  have hinfinite : x.isInfinite = false := beq_eq_false_iff_ne.mpr hfinite.ne
  have hzero : x.isZero = false := beq_eq_false_iff_ne.mpr hpos.ne'
  have hheld : x.widen.negative = x.negative ∧
      x.widen.ordinal = Format.double.nearestDecimal d := by
    rw [Binary.widen, hnumber, hinfinite, hzero]
    exact ⟨rfl, rfl⟩
  have hreads := Format.single.nearestDecimal_shortest hfinite.le .up
  obtain ⟨hnormal, hbound⟩ := Format.nearestDecimal_double_of_single hpos hfinite hreads
  rw [hheld.2]
  refine ⟨hheld.1, rfl, ?_, hbound, Format.shortest_widen hpos hfinite .up .up⟩
  exact Nat.lt_of_lt_of_le (Nat.pow_pos (by decide)) hnormal

/-- A float literal that is not finite has no text. -/
theorem compile_float_error {x : Binary64} (h : x.isFinite = false) :
    (Expr.literal (.float x)).compile.result = .error (.notFinite x) := by
  rw [Expr.compile, compile, if_neg (by rw [h]; exact Bool.false_ne_true)]
  rfl

/-- Zeros, infinities and what is no number are held as they are. -/
theorem widen_special (x : Binary32) :
    (x.isZero = true → x.widen = .zero x.negative) ∧
      (x.isNaN = true → x.widen = .notNumber x.negative) ∧
      (x.isInfinite = true → x.widen = .infinite x.negative) := by
  refine ⟨fun h => ?_, fun h => ?_, fun h => ?_⟩
  · have hordinal : x.ordinal = 0 := beq_iff_eq.mp h
    have hnumber : x.isNaN = false := decide_eq_false (by omega)
    have hinfinite : x.isInfinite = false := by
      rw [Binary.isInfinite, hordinal]
      rfl
    rw [Binary.widen, hnumber, hinfinite, h]
    rfl
  · rw [Binary.widen, h]
    rfl
  · have hordinal : x.ordinal = Format.single.infinity := beq_iff_eq.mp h
    have hnumber : x.isNaN = false := decide_eq_false (by omega)
    rw [Binary.widen, hnumber, h]
    rfl

/-- **How a 32-bit literal is written.** A finite one other than zero is held as the 64-bit
number nearest to its own shortest decimal and written with the digits and the exponent of that
decimal, so the text stands for a number that rounds to it. Zero of either sign is written `0`.
What is no number stays so, infinity stays the infinity of its sign, and neither has a text. -/
theorem compile_single (x : Binary32) :
    let d := Format.single.shortest .up x.ordinal
    let q := if x.negative then -d.value else d.value
    let held := x.widen
    let result := (Expr.literal (ofSingle x)).compile.result
    ofSingle x = .float held ∧
      (x.isFinite = true → x.value ≠ 0 →
        x.IsShortest d.chars.length q ∧ held.IsNearest q ∧ ∃ text, result = .ok text ∧
          text.toList = (if x.negative then '-' :: formulaFloats.decimal d
            else formulaFloats.decimal d) ∧
          Numeral.value text.toList = q ∧ x.IsNearest (Numeral.value text.toList)) ∧
      (x.value = 0 → result = .ok "0") ∧
      (x.isNaN = true → held.isNaN = true ∧ result = .error (.notFinite held)) ∧
      (x.isInfinite = true → held.isInfinite = true ∧ held.negative = x.negative ∧
        result = .error (.notFinite held)) := by
  intro d q held result
  refine ⟨rfl, fun hfinite hne => ?_, fun hzero => ?_, fun hnumber => ?_, fun hinfinite => ?_⟩
  · have hlt : x.ordinal < Format.single.infinity := of_decide_eq_true hfinite
    have hpos : 0 < x.ordinal := Nat.pos_of_ne_zero fun h => hne ((value_eq_zero_iff x).mpr h)
    have hshortest := Binary.isShortest_shortest Format.regular_single hpos hlt .up
    obtain ⟨hnegative, hordinal, hheldpos, hheldlt, hsame⟩ := widen_of_pos hpos hlt
    have hchars := chars_of_pos hheldpos
    have hvalue := value_chars_of_pos hheldpos
    rw [hsame, hnegative] at hchars hvalue
    have hnearest := Binary.isNearest_of_nearestDecimal hheldpos hheldlt (d := d) hordinal
    rw [hnegative] at hnearest
    refine ⟨hshortest, hnearest, _, compile_float_eq (decide_eq_true hheldlt), ?_⟩
    rw [String.toList_ofList, hvalue]
    exact ⟨hchars, rfl, hshortest.nearest⟩
  · have hordinal := (value_eq_zero_iff x).mp hzero
    have hheld : held = .zero x.negative := (widen_special x).1 (beq_iff_eq.mpr hordinal)
    have hfinite : held.isFinite = true := by
      rw [hheld]
      rfl
    have hchars := chars_of_zero (x := held) (by rw [hheld]; rfl)
    exact (compile_float_eq hfinite).trans (by rw [hchars])
  · have hheld : held = .notNumber x.negative := (widen_special x).2.1 hnumber
    have hfinite : held.isFinite = false := by
      rw [hheld]
      rfl
    exact ⟨by rw [hheld]; rfl, compile_float_error hfinite⟩
  · have hheld : held = .infinite x.negative := (widen_special x).2.2 hinfinite
    have hfinite : held.isFinite = false := by
      rw [hheld]
      rfl
    exact ⟨by rw [hheld]; rfl, by rw [hheld]; rfl, compile_float_error hfinite⟩

/-- The literal `1.1`: the 64-bit number of the same value would be written with sixteen
digits. -/
theorem compile_single_fraction :
    let x : Binary32 := .ofBits 0x3f8ccccd
    x.isFinite = true ∧ x.value ≠ 0 ∧
      (Expr.literal (ofSingle x)).compile.result = .ok "1.1" ∧
      x.IsNearest (Numeral.value "1.1".toList) := by
  intro x
  have hfinite : x.isFinite = true := by decide
  have hne : x.value ≠ 0 := fun h => absurd ((value_eq_zero_iff x).mp h) (by decide)
  have hresult : (Expr.literal (ofSingle x)).compile.result = .ok "1.1" := by decide +kernel
  obtain ⟨-, -, text, htext, -, -, hnearest⟩ := (compile_single x).2.1 hfinite hne
  obtain rfl : "1.1" = text := Except.ok.inj (hresult.symm.trans htext)
  exact ⟨hfinite, hne, hresult, hnearest⟩

end Literal

end RecordQuery
