import RecordQuery.Number.Decimal

/-!
# Writing Numbers

A written number has the digits of the shortest decimal that rounds to it. Where they stand
is the matter of a `Layout`: which numbers are positional, whether a whole number keeps its
point, how zero and the exponent are signed. Each text format of the library states its own
`Layout` beside its writer.

* `Decimal.positional` — digits with zeros up to the point, `1234`, `12.34`, `0.001234`;
* `Decimal.scientific` — one digit before the point and an exponent, `1.234e-7`.
-/

namespace RecordQuery

/-- The decisions of a number format. -/
structure Layout where
  /-- Which of two equally close shortest decimals is written. -/
  tie : Tie
  /-- The least exponent of a leading digit that is written positionally. -/
  positionalFrom : Int
  /-- The least exponent above `positionalFrom` that is not written positionally. -/
  positionalUntil : Int
  /-- Whether a positional whole number ends in `.0`. -/
  keepsPoint : Bool
  /-- Whether zero keeps its sign. -/
  signsZero : Bool
  /-- Whether a positive exponent is signed. -/
  signsExponent : Bool

namespace Decimal

/-- The digits, most significant first. -/
def chars (d : Decimal) : List Char := Nat.toDigits 10 d.digits

/-- The exponent of the leading digit. -/
def leading (d : Decimal) : Int := d.exponent + (d.chars.length - 1 : Nat)

/-- Digits with zeros up to the point, and the point itself where there is a fraction. -/
def positional (d : Decimal) (whole : List Char) : List Char :=
  if 0 ≤ d.exponent then d.chars ++ List.replicate d.exponent.toNat '0' ++ whole
  else if 0 ≤ d.leading then
    let before := d.leading.toNat + 1
    d.chars.take before ++ '.' :: d.chars.drop before
  else '0' :: '.' :: (List.replicate (-d.leading - 1).toNat '0' ++ d.chars)

/-- The leading digit, the others after a point, and the exponent of the leading digit. -/
def scientific (d : Decimal) (plus : List Char) : List Char :=
  let exponent := Nat.toDigits 10 d.leading.natAbs
  let mantissa :=
    match d.chars with
    | [] => []
    | [digit] => [digit]
    | digit :: others => digit :: '.' :: others
  mantissa ++ 'e' :: (if d.leading < 0 then '-' :: exponent else plus ++ exponent)

end Decimal

namespace Layout

/-- Writes a decimal. -/
def decimal (layout : Layout) (d : Decimal) : List Char :=
  if layout.positionalFrom ≤ d.leading ∧ d.leading < layout.positionalUntil then
    d.positional (if layout.keepsPoint then ['.', '0'] else [])
  else d.scientific (if layout.signsExponent then ['+'] else [])

/-- Writes a finite magnitude other than zero. -/
def magnitude (layout : Layout) (F : Format) (ordinal : Nat) : List Char :=
  layout.decimal (F.shortest layout.tie ordinal)

/-- Writes a finite number. -/
def chars (layout : Layout) {F : Format} (x : Binary F) : List Char :=
  if x.isZero then
    (if layout.signsZero && x.negative then ['-'] else []) ++
      '0' :: (if layout.keepsPoint then ['.', '0'] else [])
  else (if x.negative then ['-'] else []) ++ layout.magnitude F x.ordinal

end Layout

/-- What stands for a value that is not finite. -/
def Binary.nonFiniteName {F : Format} (x : Binary F) : String :=
  if x.isNaN then "NaN" else if x.negative then "-inf" else "inf"

/-- Writes any number: a finite one as laid out, any other by its name. -/
def Layout.render (layout : Layout) {F : Format} (x : Binary F) : String :=
  if x.isFinite then String.ofList (layout.chars x) else x.nonFiniteName

end RecordQuery
