import RecordQuery.Number.Binary

/-!
# Decimals and the Shortest Decimal of a Number

A decimal is a count of digits' worth of a power of ten. The shortest decimal of a number
is the one with the fewest digits among those that round to it, and of these the closest.

A unit of a format is `2 ^ (-scale)`, hence `5 ^ scale` times `10 ^ (-scale)`: every finite
magnitude is a whole number of *decimal units* `10 ^ (-scale)`. The grids `10 ^ place`
decimal units apart are nested, so the shortest decimal lies on the coarsest grid that has
a point rounding to the number, and it is enough to look at the two neighbours of the
number on each grid.
-/

namespace RecordQuery

-- Powers of natural numbers are the core ones, whatever else is imported.
attribute [local instance (high)] instPowNat

/-- The decimal `digits * 10 ^ exponent`. -/
structure Decimal where
  /-- The digits, read as one number. -/
  digits : Nat
  /-- The power of ten of the last digit. -/
  exponent : Int
  deriving DecidableEq

/-- Which of two equally close decimals is chosen. -/
inductive Tie where
  /-- The one with the even last digit. -/
  | even
  /-- The greater one. -/
  | up
  deriving DecidableEq

namespace Format

/-- The magnitude of an ordinal in decimal units. -/
def decimalUnits (F : Format) (ordinal : Nat) : Nat := F.units ordinal * 5 ^ F.scale

/-- The ordinal nearest to a decimal. -/
def nearestDecimal (F : Format) (d : Decimal) : Nat :=
  match d.exponent with
  | .ofNat e => F.nearestNat (d.digits * 10 ^ e)
  | .negSucc e => F.nearest (d.digits * 2 ^ F.scale) (10 ^ (e + 1))

/-- Whether `count` points of the grid `10 ^ place` decimal units round to the ordinal. -/
def readsBack (F : Format) (ordinal place count : Nat) : Bool :=
  F.nearest (count * 10 ^ place) (5 ^ F.scale) == ordinal

/-- The point of a grid that rounds to the ordinal: of two such the closer, of two equally
close ones the one that `tie` prefers. -/
def gridPoint? (F : Format) (tie : Tie) (ordinal place : Nat) : Option Nat :=
  let step := 10 ^ place
  let low := F.decimalUnits ordinal / step
  let twice := 2 * (F.decimalUnits ordinal % step)
  let lowFirst := twice < step || (twice == step && tie == .even && low % 2 == 0)
  match F.readsBack ordinal place low, F.readsBack ordinal place (low + 1) with
  | true, true => some (if lowFirst then low else low + 1)
  | true, false => some low
  | false, true => some (low + 1)
  | false, false => none

/-- The point found first when the grids are tried from `place` down to the finest, where
the magnitude itself is a point. -/
def coarsest (F : Format) (tie : Tie) (ordinal : Nat) : Nat → Decimal
  | 0 => ⟨F.decimalUnits ordinal, -F.scale⟩
  | place + 1 =>
    match F.gridPoint? tie ordinal (place + 1) with
    | some digits => ⟨digits, (place : Int) + 1 - F.scale⟩
    | none => F.coarsest tie ordinal place

/-- The shortest decimal of a finite positive magnitude. Since `2 ^ 93 < 10 ^ 28`, the grid
tried first is coarser than the magnitude is large. -/
def shortest (F : Format) (tie : Tie) (ordinal : Nat) : Decimal :=
  F.coarsest tie ordinal ((F.decimalUnits ordinal).log2 * 28 / 93 + 2)

end Format

-- A tie between two shortest decimals: a quarter after sixteen digits.
example : Format.double.shortest .even 0x431c6bf526340001 = ⟨20000000000000002, -1⟩ := by
  decide +kernel
example : Format.double.shortest .up 0x431c6bf526340001 = ⟨20000000000000003, -1⟩ := by
  decide +kernel

/-- Rounding a decimal stays within the format. -/
theorem Format.nearestDecimal_lt (F : Format) (d : Decimal) :
    F.nearestDecimal d < 2 ^ F.width := by
  unfold Format.nearestDecimal
  split <;> exact Format.nearest_lt _ _ _

/-- The 64-bit number nearest to the shortest decimal of a 32-bit one; what has no decimal
stays what it is. -/
def Binary.widen (x : Binary32) : Binary64 :=
  if x.isNaN then .notNumber x.negative
  else if x.isInfinite then .infinite x.negative
  else if x.isZero then .zero x.negative
  else
    ⟨x.negative, Format.double.nearestDecimal (Format.single.shortest .up x.ordinal),
      Format.nearestDecimal_lt _ _⟩

end RecordQuery
