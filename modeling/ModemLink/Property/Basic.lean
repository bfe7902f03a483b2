import ModemLink.Bus.Value

/-!
# Property values

A property that the hardware reports is a truth value, an integer of 64 bits, a floating point
number, a text or a reference to another object.

* `Property.sameValue`: equality, with floating point numbers compared as numbers.
* `Property.ofBus?`: the property form of a value on the bus. Variants are opened to any depth;
  containers, signatures, descriptors and integers beyond 64 signed bits have no such form.
-/

namespace ModemLink

/-- The value of one property. -/
inductive Property
  | bool (b : Bool)
  | int (n : Int64)
  | float (x : Double)
  | string (s : String)
  /-- A reference to another object. Its text need not be an object path. -/
  | path (s : String)
deriving DecidableEq, Repr, Inhabited

/-- What sort of value a property holds. -/
inductive Kind
  | bool | int | float | string | path
deriving DecidableEq, Repr

def Kind.text : Kind → String
  | .bool => "bool"
  | .int => "integer"
  | .float => "float"
  | .string => "string"
  | .path => "object path"

namespace Property

def kind : Property → Kind
  | .bool _ => .bool
  | .int _ => .int
  | .float _ => .float
  | .string _ => .string
  | .path _ => .path

/-- A property as it is written: texts and paths stand between quotes, as they are. -/
def text : Property → String
  | .bool b => if b then "true" else "false"
  | .int n => toString n.toInt
  | .float x => x.text
  | .string s => "\"" ++ s ++ "\""
  | .path s => "\"" ++ s ++ "\""

/-- Equality of properties, with floating point numbers compared as numbers. -/
def sameValue : Property → Property → Bool
  | .float x, .float y => x.sameNumber y
  | p, q => p == q

/-- The property form of a value on the bus. -/
def ofBus? : Bus.Value → Option Property
  | .boolean b => some (.bool b)
  | .byte n => some (.int (.ofNat n.toNat))
  | .int16 n => some (.int (.ofInt n.toInt))
  | .uint16 n => some (.int (.ofNat n.toNat))
  | .int32 n => some (.int (.ofInt n.toInt))
  | .uint32 n => some (.int (.ofNat n.toNat))
  | .int64 n => some (.int n)
  | .uint64 n => if n.toNat < Nat.pow 2 63 then some (.int (.ofNat n.toNat)) else none
  | .double x => some (.float x)
  | .string s => some (.string s)
  | .path s => some (.path s)
  | .variant v => ofBus? v
  | _ => none

end Property

end ModemLink
