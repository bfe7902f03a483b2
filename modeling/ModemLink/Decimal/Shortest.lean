/-!
# Shortest decimals

The decimal of fewest digits that lies in a given interval around a positive rational, and among
those the one nearest to it. With the interval of reals that round to a binary floating point
number this is the shortest decimal that reads back as that number.

All arithmetic is on natural numbers: the value and the ends of the interval share one
denominator.

* `Interval`: a value with its two ends, and whether the ends belong to it.
* `Interval.shortest`: the digits and the place of the decimal point.
-/

namespace ModemLink.Decimal

/-- A positive value with an interval around it, as numerators over one denominator. The ends
belong to the interval iff `closed`. -/
structure Interval where
  low : Nat
  value : Nat
  high : Nat
  denominator : Nat
  closed : Bool

/-- The number `0.d₁…dₙ · 10 ^ place` with the digits `d₁…dₙ` of `digits`. -/
structure Scientific where
  digits : Nat
  place : Int
deriving DecidableEq, Repr

namespace Interval

/-- Whether `n · 10 ^ k` lies in the interval. -/
def holds (i : Interval) (n : Nat) (k : Int) : Bool :=
  let x := n * Nat.pow 10 k.toNat * i.denominator
  let scale := Nat.pow 10 (-k).toNat
  if i.closed then decide (i.low * scale ≤ x ∧ x ≤ i.high * scale)
  else decide (i.low * scale < x ∧ x < i.high * scale)

/-- Twice the value, as a multiple of `10 ^ k`: numerator and denominator. -/
def scaled (i : Interval) (k : Int) : Nat × Nat :=
  (i.value * Nat.pow 10 (-k).toNat, i.denominator * Nat.pow 10 k.toNat)

/-- The point of the grid `10 ^ k` in the interval that is nearest to the value, if one of the two
neighbours of the value on the grid is in it. Of two equally near points the upper one counts. -/
def onGrid (i : Interval) (k : Int) : Option Nat :=
  let (num, den) := i.scaled k
  let below := num / den
  let upper := i.holds (below + 1) k
  if i.holds below k then
    if upper && decide (den ≤ 2 * (num % den)) then some (below + 1) else some below
  else if upper then some (below + 1) else none

/-- The least `e` from `e` on, for at most `fuel` steps, with `value < 10 ^ e`. -/
def placeFrom (i : Interval) (e : Int) : Nat → Int
  | 0 => e
  | fuel + 1 =>
    if i.value * Nat.pow 10 (-e).toNat < i.denominator * Nat.pow 10 e.toNat then e
    else placeFrom i (e + 1) fuel

/-- The first grid of at most `fuel` successively finer ones that has a point in the interval. -/
def firstGrid (i : Interval) (k : Int) : Nat → Option (Nat × Int)
  | 0 => none
  | fuel + 1 =>
    match i.onGrid k with
    | some n => some (n, k)
    | none => firstGrid i (k - 1) fuel

end Interval

/-- The decimal digits of a number, without the zeros at its end, and the count of those zeros. -/
def stripZeros : Nat → Nat → Nat × Nat
  | 0, n => (n, 0)
  | fuel + 1, n =>
    if n % 10 = 0 ∧ n ≠ 0 then
      let (m, z) := stripZeros fuel (n / 10)
      (m, z + 1)
    else (n, 0)

/-- The number of decimal digits of a number. -/
def digitCount (n : Nat) : Nat := (Nat.toDigits 10 n).length

namespace Interval

/-- An exponent `e` of at most four below the least one with `value < 10 ^ e`, found from the binary
magnitude of the value. -/
def lowPlace (i : Interval) : Int :=
  ((i.value.log2 : Int) - i.denominator.log2 - 1) * 30103 / 100000

/-- The decimal of fewest digits in the interval, and the nearest to the value among those. The
seventeen digits that always suffice for a binary64 number bound the search. -/
def shortest (i : Interval) : Scientific :=
  let place := i.placeFrom i.lowPlace 4
  match i.firstGrid (place - 1) 20 with
  | none => ⟨0, 0⟩
  | some (n, k) =>
    let (m, z) := stripZeros 20 n
    ⟨m, k + z + digitCount m⟩

end Interval

end ModemLink.Decimal
