import RecordQuery.Json.Reader

/-!
# Reading Numbers

A number without a point and without an exponent is an integer if it fits into 64 bits,
signed or unsigned; every other number is a float, `-0` included.

A float is read fast and not always to the nearest: its digits are collected into one
64-bit *significand*, from the first digit on that no longer fits they count for their
place alone, and the significand is multiplied or divided by a power of ten in floating
point. Numbers too large for that are refused.
-/

namespace RecordQuery.Reader

-- Powers of natural numbers are the core ones, whatever else is imported.
attribute [local instance (high)] instPowNat

/-- The greatest significand. -/
def maxSignificand : Nat := 0xffffffffffffffff

/-- The magnitude of the least signed integer of 64 bits. -/
def maxNegative : Nat := 0x8000000000000000

/-- The greatest exponent that is read. Greater ones stand for zero or are refused. -/
def maxExponent : Nat := 0x7fffffff

/-- The greatest power of ten that is a finite float. -/
def maxPower : Nat := 308

/-- Adds digits to a significand while it fits, and returns the digits left over. -/
def collect : Nat → List Char → Nat × List Char
  | significand, [] => (significand, [])
  | significand, c :: rest =>
    let next := significand * 10 + (c.toNat - '0'.toNat)
    if next ≤ maxSignificand then collect next rest else (significand, c :: rest)

/-- The magnitude `significand * 10 ^ exponent` as far as floating point gets: the
significand is rounded first, then multiplied or divided by the power of ten, and while that
power has no finite float the significand is divided by the greatest that has one. -/
def scaleFrom : Nat → Nat → Int → Option Nat
  | fuel, magnitude, exponent =>
    if exponent.natAbs ≤ maxPower then
      let power := Format.double.nearestNat (10 ^ exponent.natAbs)
      if 0 ≤ exponent then
        let result := Format.double.product magnitude power
        if result < Format.double.infinity then some result else none
      else some (Format.double.quotient magnitude power)
    else if magnitude = 0 then some 0
    else if 0 ≤ exponent then none
    else
      match fuel with
      | 0 => some 0
      | fuel + 1 =>
        scaleFrom fuel
          (Format.double.quotient magnitude (Format.double.nearestNat (10 ^ maxPower)))
          (exponent + maxPower)

/-- The float of a significand and an exponent, if it is not too large. -/
def float (negative : Bool) (significand : Nat) (exponent : Int) : Reader Json :=
  match scaleFrom (exponent.natAbs / maxPower) (Format.double.nearestNat significand) exponent with
  | some magnitude =>
    return .float (.ofUnits negative (Format.double.units magnitude) 1)
  | none => throw .malformed

/-- Reads a run of digits. -/
def digits : Reader (List Char) := do
  let cs ← get
  set (cs.dropWhile Char.isDigit)
  return cs.takeWhile Char.isDigit

/-- Reads an exponent and its mark, after a significand whose last digit has the place
`exponent`. -/
def exponentPart (negative : Bool) (significand : Nat) (exponent : Int) : Reader Json := do
  advance
  let sign ← peek?
  if sign = some '+' ∨ sign = some '-' then advance
  match ← peek? with
  | none => throw .truncated
  | some c =>
    if c.isDigit then
      let size := Nat.ofDigitChars 10 (← digits) 0
      if size ≤ maxExponent then
        let added : Int := if sign = some '-' then -size else size
        float negative significand (exponent + added)
      else if significand ≠ 0 ∧ sign ≠ some '-' then throw .malformed
      else return .float (.zero negative)
    else throw .malformed

/-- Reads an exponent if there is one. -/
def exponentPart? (negative : Bool) (significand : Nat) (exponent : Int) : Reader Json := do
  let c ← peek?
  if c = some 'e' ∨ c = some 'E' then exponentPart negative significand exponent
  else float negative significand exponent

/-- Reads a point and a fraction, after a significand whose last digit has the place
`exponent`. -/
def fractionPart (negative : Bool) (significand : Nat) (exponent : Int) : Reader Json := do
  advance
  let fraction ← digits
  if fraction.isEmpty then
    match ← peek? with
    | none => throw .truncated
    | some _ => throw .malformed
  else
    let (significand, ignored) := collect significand fraction
    exponentPart? negative significand (exponent - (fraction.length - ignored.length : Nat))

/-- The number of a sign and an integer of 64 bits. -/
def integer (negative : Bool) (significand : Nat) : Json :=
  if negative then
    if significand = 0 ∨ maxNegative < significand then
      .float (.ofUnits true (significand * 2 ^ Format.double.scale) 1)
    else .integer (-significand)
  else .integer significand

/-- Reads a number whose sign is read already. -/
def number (negative : Bool) : Reader Json := do
  match ← peek? with
  | none => throw .truncated
  | some c =>
    if !c.isDigit then throw .malformed
    let whole ← digits
    if c = '0' ∧ 1 < whole.length then throw .malformed
    let (significand, ignored) := collect 0 whole
    let next ← peek?
    if next = some '.' then fractionPart negative significand ignored.length
    else if next = some 'e' ∨ next = some 'E' then
      exponentPart negative significand ignored.length
    else if ignored.isEmpty then return integer negative significand
    else float negative significand ignored.length

/-- Skips an exponent and its mark. -/
def skipExponent : Reader Unit := do
  advance
  let sign ← peek?
  if sign = some '+' ∨ sign = some '-' then advance
  if (← digits).isEmpty then throw .malformed

/-- Skips a number whose sign is read already. Only its form counts, and a number that ends
too early is malformed. -/
def skipNumber : Reader Unit := do
  let first ← peek?
  let whole ← digits
  if whole.isEmpty then throw .malformed
  if first = some '0' ∧ 1 < whole.length then throw .malformed
  if (← peek?) = some '.' then
    advance
    if (← digits).isEmpty then throw .malformed
  let next ← peek?
  if next = some 'e' ∨ next = some 'E' then skipExponent

end RecordQuery.Reader
