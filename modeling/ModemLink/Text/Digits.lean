/-!
# Digits

Digit characters and the numbers that digit strings denote, in base ten and base sixteen. The
letters of base sixteen may be written in either case.

* `decimal?`, `hex?`: the value of one digit character.
* `number base`: the number a list of digit values denotes, most significant first.
-/

namespace ModemLink.Text

/-- The value of a decimal digit character. -/
def decimal? (c : Char) : Option Nat :=
  if '0' ≤ c ∧ c ≤ '9' then some (c.toNat - '0'.toNat) else none

/-- The value of a hexadecimal digit character. -/
def hex? (c : Char) : Option Nat :=
  if '0' ≤ c ∧ c ≤ '9' then some (c.toNat - '0'.toNat)
  else if 'a' ≤ c ∧ c ≤ 'f' then some (c.toNat - 'a'.toNat + 10)
  else if 'A' ≤ c ∧ c ≤ 'F' then some (c.toNat - 'A'.toNat + 10)
  else none

/-- Whether a character is a decimal digit. -/
def isDecimal (c : Char) : Bool := (decimal? c).isSome

/-- The number denoted by digit values, the most significant first. -/
def number (base : Nat) (digits : List Nat) : Nat := digits.foldl (fun n d => n * base + d) 0

/-- The number denoted by decimal digit characters; other characters are passed over. -/
def decimalNumber (s : List Char) : Nat := number 10 (s.filterMap decimal?)

end ModemLink.Text
