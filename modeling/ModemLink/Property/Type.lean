import ModemLink.Bus.Names
import ModemLink.Property.Basic

/-!
# Types of properties

The nine types as which a property can be read and written. All integer types share one kind of
property: an integer can be read as any type that has room for it.

* `PropertyType.read?`: the property as a value of the type.
* `PropertyType.write`: the property that holds a value of the type.
* `read?_write`: what was written as a type is read back as that type.
-/

namespace ModemLink

inductive PropertyType
  | bool | float | string | path | int64 | int32 | uint32 | uint16 | uint8
deriving DecidableEq, Repr

namespace PropertyType

/-- The values of a type. -/
@[reducible] def Carrier : PropertyType → Type
  | .bool => Bool
  | .float => Double
  | .string => String
  | .path => Bus.ObjectPath
  | .int64 => Int64
  | .int32 => Int32
  | .uint32 => UInt32
  | .uint16 => UInt16
  | .uint8 => UInt8

def text : PropertyType → String
  | .bool => "bool"
  | .float => "f64"
  | .string => "string"
  | .path => "object path"
  | .int64 => "i64"
  | .int32 => "i32"
  | .uint32 => "u32"
  | .uint16 => "u16"
  | .uint8 => "u8"

/-- The kind of property in which the values of a type are held. -/
def kind : PropertyType → Kind
  | .bool => .bool
  | .float => .float
  | .string => .string
  | .path => .path
  | .int64 | .int32 | .uint32 | .uint16 | .uint8 => .int

/-- The property as a value of the type, if it has the type's kind and the type has room for it. -/
def read? : (t : PropertyType) → Property → Option t.Carrier
  | .bool, .bool b => some b
  | .float, .float x => some x
  | .string, .string s => some s
  | .path, .path s => Bus.ObjectPath.ofText? s
  | .int64, .int n => some n
  | .int32, .int n =>
    if Int32.minValue.toInt ≤ n.toInt ∧ n.toInt ≤ Int32.maxValue.toInt then some (.ofInt n.toInt) else none
  | .uint32, .int n =>
    if 0 ≤ n.toInt ∧ n.toInt < UInt32.size then some (.ofNat n.toInt.toNat) else none
  | .uint16, .int n =>
    if 0 ≤ n.toInt ∧ n.toInt < UInt16.size then some (.ofNat n.toInt.toNat) else none
  | .uint8, .int n =>
    if 0 ≤ n.toInt ∧ n.toInt < UInt8.size then some (.ofNat n.toInt.toNat) else none
  | _, _ => none

/-- The property that holds a value of the type. -/
def write : (t : PropertyType) → t.Carrier → Property
  | .bool, b => .bool b
  | .float, x => .float x
  | .string, s => .string s
  | .path, p => .path p.text
  | .int64, n => .int n
  | .int32, n => .int (.ofInt n.toInt)
  | .uint32, n => .int (.ofNat n.toNat)
  | .uint16, n => .int (.ofNat n.toNat)
  | .uint8, n => .int (.ofNat n.toNat)

theorem kind_write (t : PropertyType) (v : t.Carrier) : (t.write v).kind = t.kind := by
  cases t <;> rfl

/-- What was written as a type is read back as that type. -/
theorem read?_write (t : PropertyType) (v : t.Carrier) : t.read? (t.write v) = some v := by
  cases t with
  | bool | float | string | int64 => rfl
  | path => exact Bus.ObjectPath.ofText?_text v
  | int32 =>
    have lo := Int32.le_toInt v
    have hi := Int32.toInt_lt v
    have h : (Int64.ofInt (Int32.toInt v)).toInt = Int32.toInt v :=
      Int64.toInt_ofInt_of_le (by omega) (by omega)
    simp only [write, read?, h]
    rw [if_pos ⟨Int32.minValue_le_toInt v, Int32.toInt_le v⟩, Int32.ofInt_toInt]
  | uint32 =>
    have hi := UInt32.toNat_lt v
    have h : (Int64.ofNat (UInt32.toNat v)).toInt = UInt32.toNat v :=
      Int64.toInt_ofNat_of_lt (by omega)
    simp only [write, read?, h]
    rw [if_pos ⟨Int.natCast_nonneg _, Int.ofNat_lt.mpr v.toNat_lt_size⟩, Int.toNat_natCast,
      UInt32.ofNat_toNat]
  | uint16 =>
    have hi := UInt16.toNat_lt v
    have h : (Int64.ofNat (UInt16.toNat v)).toInt = UInt16.toNat v :=
      Int64.toInt_ofNat_of_lt (by omega)
    simp only [write, read?, h]
    rw [if_pos ⟨Int.natCast_nonneg _, Int.ofNat_lt.mpr v.toNat_lt_size⟩, Int.toNat_natCast,
      UInt16.ofNat_toNat]
  | uint8 =>
    have hi := UInt8.toNat_lt v
    have h : (Int64.ofNat (UInt8.toNat v)).toInt = UInt8.toNat v :=
      Int64.toInt_ofNat_of_lt (by omega)
    simp only [write, read?, h]
    rw [if_pos ⟨Int.natCast_nonneg _, Int.ofNat_lt.mpr v.toNat_lt_size⟩, Int.toNat_natCast,
      UInt8.ofNat_toNat]

end PropertyType

end ModemLink
