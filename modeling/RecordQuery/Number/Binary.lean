/-!
# Binary Floating Point

Numbers of a binary interchange format, without any operation of the machine: a number is
a sign and an *ordinal*, its place among the magnitudes of the format in ascending order.
Every finite magnitude is a whole number of *units*, a unit being the least positive
number `2 ^ (-scale)`, so all arithmetic here is on natural numbers:

* `Format.units` — from an ordinal to its magnitude;
* `Format.nearest` — from an exact fraction of units to the ordinal of the nearest
  magnitude, a tie going to the even ordinal and too large a fraction to infinity.

The product and the quotient of two magnitudes are the nearest magnitudes to the exact
ones.
-/

namespace RecordQuery

-- Powers of natural numbers are the core ones, whatever else is imported.
attribute [local instance (high)] instPowNat

/-- A binary interchange format: the sizes of its fraction and exponent. -/
structure Format where
  /-- Bits of the fraction. -/
  fractionBits : Nat
  /-- Bits of the exponent. -/
  exponentBits : Nat
  deriving DecidableEq

namespace Format

/-- The 32-bit format. -/
def single : Format := ⟨23, 8⟩

/-- The 64-bit format. -/
def double : Format := ⟨52, 11⟩

/-- The least positive number of the format is `2 ^ (-scale)`. -/
def scale (F : Format) : Nat := 2 ^ (F.exponentBits - 1) - 2 + F.fractionBits

/-- The bits of a magnitude. -/
def width (F : Format) : Nat := F.exponentBits + F.fractionBits

/-- The ordinal of infinity. Ordinals above it are no numbers. -/
def infinity (F : Format) : Nat := (2 ^ F.exponentBits - 1) * 2 ^ F.fractionBits

/-- The magnitude of an ordinal in units. The fraction of an ordinal is its low part; in the
lowest two blocks of ordinals neighbours lie one unit apart, and the distance doubles with
each further block. -/
def units (F : Format) (ordinal : Nat) : Nat :=
  let block := ordinal / 2 ^ F.fractionBits
  let fraction := ordinal % 2 ^ F.fractionBits
  if block = 0 then fraction else (2 ^ F.fractionBits + fraction) * 2 ^ (block - 1)

/-- The ordinal of the greatest magnitude of at most `count` units. -/
def floor (F : Format) (count : Nat) : Nat :=
  let shift := count.log2 - F.fractionBits
  shift * 2 ^ F.fractionBits + count / 2 ^ shift

/-- The ordinal of the magnitude nearest to `num / den` units. A tie goes to the even
ordinal, and a fraction that would round past the greatest finite magnitude is infinite. -/
def nearest (F : Format) (num den : Nat) : Nat :=
  let low := F.floor (num / den)
  let middle := (F.units low + F.units (low + 1)) * den
  let ordinal :=
    if 2 * num < middle ∨ (2 * num = middle ∧ low % 2 = 0) then low else low + 1
  min F.infinity ordinal

/-- The ordinal nearest to a natural number. -/
def nearestNat (F : Format) (n : Nat) : Nat := F.nearest (n * 2 ^ F.scale) 1

/-- The ordinal nearest to the product of two finite magnitudes. -/
def product (F : Format) (a b : Nat) : Nat :=
  F.nearest (F.units a * F.units b) (2 ^ F.scale)

/-- The ordinal nearest to the quotient of two finite magnitudes, the second positive. -/
def quotient (F : Format) (a b : Nat) : Nat :=
  F.nearest (F.units a * 2 ^ F.scale) (F.units b)

theorem infinity_lt (F : Format) : F.infinity < 2 ^ F.width := by
  unfold infinity width
  rw [Nat.pow_add]
  have h : 0 < 2 ^ F.exponentBits := Nat.pow_pos (by decide)
  exact Nat.mul_lt_mul_of_pos_right (by omega) (Nat.pow_pos (by decide))

/-- Rounding stays within the format. -/
theorem nearest_lt (F : Format) (num den : Nat) : F.nearest num den < 2 ^ F.width :=
  Nat.lt_of_le_of_lt (Nat.min_le_left _ _) F.infinity_lt

end Format

/-- A number of a format: infinities and the values that are no numbers included. -/
@[ext] structure Binary (F : Format) where
  /-- Whether the sign is set. -/
  negative : Bool
  /-- The place of the magnitude among those of the format. -/
  ordinal : Nat
  /-- The magnitude has a place in the format. -/
  ordinal_lt : ordinal < 2 ^ F.width
  deriving DecidableEq

/-- Numbers of the 32-bit format. -/
abbrev Binary32 := Binary .single

/-- Numbers of the 64-bit format. -/
abbrev Binary64 := Binary .double

namespace Binary

variable {F : Format}

/-- The number whose sign is the bit above the magnitude. -/
def ofBits (bits : Nat) : Binary F :=
  ⟨bits / 2 ^ F.width % 2 == 1, bits % 2 ^ F.width, Nat.mod_lt _ (Nat.pow_pos (by decide))⟩

/-- The sign above the magnitude. -/
def toBits (x : Binary F) : Nat := (if x.negative then 2 ^ F.width else 0) + x.ordinal

/-- Whether the value is no number at all. -/
def isNaN (x : Binary F) : Bool := F.infinity < x.ordinal

/-- Whether the value is an infinity of either sign. -/
def isInfinite (x : Binary F) : Bool := x.ordinal == F.infinity

/-- Whether the value is a number other than an infinity. -/
def isFinite (x : Binary F) : Bool := x.ordinal < F.infinity

/-- A finite value is neither an infinity nor no number at all. -/
theorem isFinite_iff (x : Binary F) :
    x.isFinite = true ↔ x.isNaN = false ∧ x.isInfinite = false := by
  simp only [isFinite, isNaN, isInfinite, decide_eq_true_eq, decide_eq_false_iff_not,
    beq_eq_false_iff_ne]
  omega

/-- Whether the value is zero, of either sign. -/
def isZero (x : Binary F) : Bool := x.ordinal == 0

/-- Equality of numbers: zeros are equal whatever their signs, and what is no number is not
even equal to itself. -/
def same (x y : Binary F) : Bool :=
  !x.isNaN && !y.isNaN && x.ordinal == y.ordinal &&
    (x.isZero || x.negative == y.negative)

/-- Zero with a sign. -/
def zero (negative : Bool) : Binary F := ⟨negative, 0, Nat.pow_pos (by decide)⟩

/-- Infinity with a sign. -/
def infinite (negative : Bool) : Binary F := ⟨negative, F.infinity, F.infinity_lt⟩

/-- A value that is no number. -/
def notNumber (negative : Bool) : Binary F :=
  ⟨negative, 2 ^ F.width - 1, Nat.sub_lt (Nat.pow_pos (by decide)) (by decide)⟩

instance : Inhabited (Binary F) := ⟨zero false⟩

/-- The number nearest to `num / den` units, with a sign. -/
def ofUnits (negative : Bool) (num den : Nat) : Binary F :=
  ⟨negative, F.nearest num den, F.nearest_lt num den⟩

/-- The number nearest to an integer. -/
def ofInt (n : Int) : Binary F := ofUnits (n < 0) (n.natAbs * 2 ^ F.scale) 1

end Binary

end RecordQuery
