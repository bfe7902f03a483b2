import ModemLink.Error
import ModemLink.Network.Calendar
import ModemLink.Text.Blank
import ModemLink.Text.Digits

/-!
# Network time

The network tells the time as a text `year-month-dayThour:minute:second`, with a fraction and a zone
after it that are not used. The first nineteen bytes are read as universal time.

Each number may stand after blanks and may have fewer digits than usual, and the year may have a
sign, after which it may have more digits. Second 60 is the leap second, which counts as second 59.

* `NetworkTime.epochSeconds`: seconds since the beginning of 1970.
-/

namespace ModemLink.NetworkTime

/-- How many bytes of the text are read. -/
def width : Nat := 19

/-- The characters that take up exactly the first `n` bytes of a text. -/
def takeBytes : List Char → Nat → Option (List Char)
  | _, 0 => some []
  | [], _ + 1 => none
  | c :: rest, n + 1 =>
    if c.utf8Size ≤ n + 1 then (takeBytes rest (n + 1 - c.utf8Size)).map (c :: ·) else none

/-- The number of one to `most` digits at the head of a text, and the text after it. -/
def digits (most : Nat) (s : List Char) : Option (Nat × List Char) :=
  let taken := (s.take most).takeWhile Text.isDecimal
  if taken.isEmpty then none
  else some (Text.decimalNumber taken, s.drop taken.length)

/-- The number of one or two digits after blanks, and the text after it. -/
def shortNumber (s : List Char) : Option (Nat × List Char) := digits 2 (Text.trimStart s)

/-- The year after blanks: up to four digits, or a sign and any number of digits. -/
def year (s : List Char) : Option (Int × List Char) :=
  match Text.trimStart s with
  | '-' :: rest => (digits rest.length rest).map fun (n, r) => (-n, r)
  | '+' :: rest => (digits rest.length rest).map fun (n, r) => (n, r)
  | rest => (digits 4 rest).map fun (n, r) => (n, r)

/-- The text after the character `c`, which stands at its head. -/
def expect (c : Char) : List Char → Option (List Char)
  | [] => none
  | d :: rest => if d = c then some rest else none

/-- A date and a time of day. -/
structure Reading where
  date : Calendar.Date
  hour : Nat
  minute : Nat
  second : Nat
deriving DecidableEq, Repr

/-- The date and time that a text consists of. -/
def reading? (s : List Char) : Option Reading := do
  let (year, s) ← year s
  let (month, s) ← shortNumber (← expect '-' s)
  let (day, s) ← shortNumber (← expect '-' s)
  let (hour, s) ← shortNumber (← expect 'T' s)
  let (minute, s) ← shortNumber (← expect ':' s)
  let (second, s) ← shortNumber (← expect ':' s)
  if s.isEmpty then return ⟨⟨year, month, day⟩, hour, minute, second⟩ else none

namespace Reading

/-- Whether the calendar has the date and the day has the time; second 60 is a leap second. The
years are those that fit a date of 32 bits. -/
def isValid (r : Reading) : Bool :=
  r.date.isValid && -262143 ≤ r.date.year && r.date.year ≤ 262142 &&
    r.hour ≤ 23 && r.minute ≤ 59 && r.second ≤ 60

/-- Seconds since the beginning of 1970. -/
def epochSeconds (r : Reading) : Int :=
  86400 * r.date.epochDay + (3600 * r.hour + 60 * r.minute + min r.second 59 : Nat)

end Reading

/-- The seconds since the beginning of 1970 that a network time tells. -/
def epochSeconds (time : String) : Except Error Int :=
  match (takeBytes time.toList width).bind reading? with
  | some r => if r.isValid then .ok r.epochSeconds else .error (.invalidNetworkTime time)
  | none => .error (.invalidNetworkTime time)

end ModemLink.NetworkTime
