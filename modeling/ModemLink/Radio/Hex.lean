import ModemLink.Property.Bag
import ModemLink.Text.Blank
import ModemLink.Text.Digits

/-!
# Hexadecimal fields

Cell identifiers are reported as texts of hexadecimal digits. A field is read as a number below
`2 ^ 32`; one plus sign before the digits and blanks around the whole are allowed.

* `Hex.parse?`: the number of an exact text, without blanks.
* `Hex.read`: the number of a field.
* `Bag.storeHex`, `Bag.storeHex16`: a field of one bag is stored as a number in another. A bag is
  changed in place; where this fails, what was done to it before stays done.
* `Bag.copyHex`, `Bag.copyHex16`: the bag that comes of it.
-/

namespace ModemLink

namespace Hex

/-- The text without the one plus sign that may stand before the digits. -/
def unsigned : List Char → List Char
  | '+' :: rest => rest
  | s => s

/-- The number denoted by hexadecimal digits, at least one, after an optional plus sign. -/
def parse? (s : List Char) : Option UInt32 :=
  match (unsigned s).mapM Text.hex? with
  | none | some [] => none
  | some digits =>
    let n := Text.number 16 digits
    if n < UInt32.size then some (.ofNat n) else none

/-- The number in the field named `field`. -/
def read (field value : String) : Except Error UInt32 :=
  match parse? (Text.trim value.toList) with
  | some n => .ok n
  | none => .error (.invalidHex field value)

end Hex

namespace Bag

/-- Stores the hexadecimal field `key` of `source`, if present, as a number under `newKey` of the
bag at hand. -/
def storeHex (source : Bag) (key newKey : String) : EStateM Error Bag Unit := do
  match ← ofExcept (source.getOptional? .string key) with
  | none => return
  | some text =>
    let n ← ofExcept (Hex.read key text)
    modify fun target => target.insertAs .uint32 newKey n

/-- As `Bag.storeHex`, for a field of at most 16 bits. -/
def storeHex16 (source : Bag) (key newKey : String) : EStateM Error Bag Unit := do
  match ← ofExcept (source.getOptional? .string key) with
  | none => return
  | some text =>
    let n ← ofExcept (Hex.read key text)
    if n.toNat < UInt16.size then modify fun target => target.insertAs .uint16 newKey n.toUInt16
    else throw (.invalidHex key text)

/-- What the bag `target` becomes by a change, unless this fails. -/
def changed (target : Bag) (change : EStateM Error Bag Unit) : Except Error Bag :=
  match change.run target with
  | .ok () b => .ok b
  | .error e _ => .error e

/-- The bag `target` with the hexadecimal field `key` of `source`, if present, as a number under
`newKey`. -/
def copyHex (target source : Bag) (key newKey : String) : Except Error Bag :=
  target.changed (source.storeHex key newKey)

/-- As `Bag.copyHex`, for a field of at most 16 bits. -/
def copyHex16 (target source : Bag) (key newKey : String) : Except Error Bag :=
  target.changed (source.storeHex16 key newKey)

section

variable (target source : Bag) (key newKey : String)

theorem changed_ofExcept_bind {α : Type} (x : Except Error α) (next : α → EStateM Error Bag Unit) :
    target.changed (ofExcept x >>= next) = x >>= fun a => target.changed (next a) := by
  cases x <;> rfl

theorem copyHex_eq_bind : target.copyHex source key newKey = (do
    match ← source.getOptional? .string key with
    | none => return target
    | some text => return target.insertAs .uint32 newKey (← Hex.read key text)) := by
  refine (target.changed_ofExcept_bind _ _).trans (bind_congr fun value => ?_)
  cases value with
  | none => rfl
  | some text => exact target.changed_ofExcept_bind (Hex.read key text) _

theorem copyHex16_eq_bind : target.copyHex16 source key newKey = (do
    match ← source.getOptional? .string key with
    | none => return target
    | some text =>
      let n ← Hex.read key text
      if n.toNat < UInt16.size then return target.insertAs .uint16 newKey n.toUInt16
      else throw (.invalidHex key text)) := by
  refine (target.changed_ofExcept_bind _ _).trans (bind_congr fun value => ?_)
  cases value with
  | none => rfl
  | some text =>
    refine (target.changed_ofExcept_bind (Hex.read key text) _).trans (bind_congr fun n => ?_)
    split <;> rfl

end

end Bag

end ModemLink
