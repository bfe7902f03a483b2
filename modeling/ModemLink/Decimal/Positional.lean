import ModemLink.Decimal.Shortest

/-!
# Positional notation

A decimal written without an exponent, whatever its size: zeros fill the places between the digits
and the point, and a whole number has no point.
-/

namespace ModemLink.Decimal

/-- The text of `0.d₁…dₙ · 10 ^ place` without an exponent. -/
def Scientific.positional (x : Scientific) : String :=
  let digits := Nat.toDigits 10 x.digits
  if x.place ≤ 0 then
    "0." ++ String.ofList (List.replicate (-x.place).toNat '0' ++ digits)
  else
    let whole := x.place.toNat
    if digits.length ≤ whole then
      String.ofList (digits ++ List.replicate (whole - digits.length) '0')
    else
      String.ofList (digits.take whole ++ '.' :: digits.drop whole)

end ModemLink.Decimal
