import ModemLink.Decimal.Positional

/-!
# Binary floating point numbers

A number of the binary64 format, kept as its 64 bits. Nothing is computed with these numbers; they
are compared and written.

* `Double.sameNumber`: numeric equality, for which the two zeros are equal and a NaN differs from
  itself.
* `Double.text`: the shortest decimal that reads back as the number, without an exponent.
-/

namespace ModemLink

/-- A binary64 number: a sign bit, eleven bits of exponent and 52 bits of fraction. -/
structure Double where
  bits : UInt64
deriving DecidableEq, Repr, Inhabited

namespace Double

/-- The sign bit. -/
def negative (x : Double) : Bool := decide (Nat.pow 2 63 ≤ x.bits.toNat)

/-- The exponent field. -/
def exponentField (x : Double) : Nat := x.bits.toNat / Nat.pow 2 52 % Nat.pow 2 11

/-- The fraction field. -/
def fractionField (x : Double) : Nat := x.bits.toNat % Nat.pow 2 52

def isNaN (x : Double) : Bool := x.exponentField == 2047 && x.fractionField != 0

def isInfinite (x : Double) : Bool := x.exponentField == 2047 && x.fractionField == 0

def isZero (x : Double) : Bool := x.exponentField == 0 && x.fractionField == 0

/-- The one NaN that stands for all of them. -/
def nan : Double := ⟨0x7ff8000000000000⟩

/-- The number with the given bits; all NaNs are taken as one. -/
def ofBits (bits : UInt64) : Double :=
  if (Double.mk bits).isNaN then nan else ⟨bits⟩

/-- Numeric equality: the two zeros are equal and a NaN differs from itself. -/
def sameNumber (x y : Double) : Bool :=
  !x.isNaN && !y.isNaN && ((x.isZero && y.isZero) || x.bits == y.bits)

/-- The integer `m` and the exponent `q` with `m · 2 ^ q` the magnitude of a finite number. -/
def magnitude (x : Double) : Nat × Int :=
  if x.exponentField = 0 then (x.fractionField, -1074)
  else (Nat.pow 2 52 + x.fractionField, (x.exponentField : Int) - 1075)

/-- The reals that round to a finite number other than zero: half a unit to each side, where the
unit below a power of two is half as wide; the ends round to it iff its integer is even. -/
def roundingInterval (x : Double) : Decimal.Interval :=
  let (m, q) := x.magnitude
  let narrow := x.fractionField = 0 ∧ 1 < x.exponentField
  let up := Nat.pow 2 q.toNat
  { low := (if narrow then 4 * m - 1 else 4 * m - 2) * up
    value := 4 * m * up
    high := (4 * m + 2) * up
    denominator := 4 * Nat.pow 2 (-q).toNat
    closed := m % 2 == 0 }

/-- The shortest decimal that reads back as the number, written without an exponent. -/
def text (x : Double) : String :=
  if x.isNaN then "NaN"
  else
    let body :=
      if x.isInfinite then "inf"
      else if x.isZero then "0"
      else x.roundingInterval.shortest.positional
    if x.negative then "-" ++ body else body

end Double

end ModemLink
