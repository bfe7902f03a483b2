import Mathlib.Algebra.Group.Int.Defs
import Mathlib.Algebra.Group.Nat.Defs
import ModemLink.Proofs.Property.Fields

/-!
# Reading a property as a type

A property can be read as a type if it is of the type's kind and the type has room for it. All
integer types share one kind, so an integer can be read as any of them that has room for its number,
whichever of them it was written as.

* `number?`, `HasRoom`, `Reads`, `Fits`: what is read, told by numbers and not by bits.
* `read?_eq_some_iff_reads`, `exists_reads_iff`: a read gives what is there, if it fits.
* `Bag.ReadsAs`: all typed reads of a key, told from what the bag holds there.
-/

namespace ModemLink

namespace PropertyType

/-- The number that a value of an integer type is. -/
def number? : (t : PropertyType) → t.Carrier → Option Int
  | .int64, n => some (Int64.toInt n)
  | .int32, n => some (Int32.toInt n)
  | .uint32, n => some (UInt32.toNat n)
  | .uint16, n => some (UInt16.toNat n)
  | .uint8, n => some (UInt8.toNat n)
  | .bool, _ | .float, _ | .string, _ | .path, _ => none

/-- The numbers that the values of an integer type are. -/
def HasRoom : PropertyType → Int → Prop
  | .int64, n => -2 ^ 63 ≤ n ∧ n < 2 ^ 63
  | .int32, n => -2 ^ 31 ≤ n ∧ n < 2 ^ 31
  | .uint32, n => 0 ≤ n ∧ n < 2 ^ 32
  | .uint16, n => 0 ≤ n ∧ n < 2 ^ 16
  | .uint8, n => 0 ≤ n ∧ n < 2 ^ 8
  | .bool, _ | .float, _ | .string, _ | .path, _ => False

/-- A property is, read as a type, a value. -/
inductive Reads : (t : PropertyType) → Property → t.Carrier → Prop
  | bool (b : Bool) : Reads .bool (.bool b) b
  | float (x : Double) : Reads .float (.float x) x
  | string (s : String) : Reads .string (.string s) s
  | path (p : Bus.ObjectPath) : Reads .path (.path p.text) p
  | integer {t : PropertyType} {n : Int64} {v : t.Carrier} (h : t.number? v = some n.toInt) :
    Reads t (.int n) v

/-- A property can be read as a type. -/
structure Fits (t : PropertyType) (p : Property) : Prop where
  kind : p.kind = t.kind
  room : ∀ n : Int64, p = .int n → t.HasRoom n.toInt
  path : ∀ s, p = .path s → Bus.isObjectPath s = true

/-! ## Numbers -/

theorem write_of_number? {t : PropertyType} {v : t.Carrier} {k : Int} (h : t.number? v = some k) :
    ∃ n : Int64, t.write v = .int n ∧ n.toInt = k := by
  cases t <;> cases h
  case int64 => exact ⟨v, rfl, rfl⟩
  case int32 =>
    have hLow := Int32.le_toInt v
    have hHigh := Int32.toInt_lt v
    exact ⟨_, rfl, Int64.toInt_ofInt_of_le (by omega) (by omega)⟩
  case uint32 =>
    have hLt := UInt32.toNat_lt v
    exact ⟨_, rfl, Int64.toInt_ofNat_of_lt (by omega)⟩
  case uint16 =>
    have hLt := UInt16.toNat_lt v
    exact ⟨_, rfl, Int64.toInt_ofNat_of_lt (by omega)⟩
  case uint8 =>
    have hLt := UInt8.toNat_lt v
    exact ⟨_, rfl, Int64.toInt_ofNat_of_lt (by omega)⟩

/-- A reading of values as numbers that stays in a range, and can be undone on all of it. -/
theorem exists_eq_some_iff_of_range {α : Type} {number : α → Int} {low high k : Int}
    (hRange : ∀ v, low ≤ number v ∧ number v < high) (value : Int → α)
    (hValue : low ≤ k → k < high → number (value k) = k) :
    (∃ v, some (number v) = some k) ↔ low ≤ k ∧ k < high := by
  constructor
  · rintro ⟨v, ⟨⟩⟩
    exact hRange v
  · rintro ⟨hLow, hHigh⟩
    exact ⟨value k, congrArg some (hValue hLow hHigh)⟩

theorem exists_number?_iff {t : PropertyType} {k : Int} :
    (∃ v, t.number? v = some k) ↔ t.HasRoom k := by
  cases t with
  | bool | float | string | path => exact iff_of_false nofun not_false
  | int64 =>
    exact exists_eq_some_iff_of_range (fun v => ⟨Int64.le_toInt v, Int64.toInt_lt v⟩) .ofInt
      Int64.toInt_ofInt_of_le
  | int32 =>
    exact exists_eq_some_iff_of_range (fun v => ⟨Int32.le_toInt v, Int32.toInt_lt v⟩) .ofInt
      Int32.toInt_ofInt_of_le
  | uint32 =>
    refine exists_eq_some_iff_of_range
      (fun v => ⟨Int.natCast_nonneg _, Int.ofNat_lt.mpr (UInt32.toNat_lt v)⟩)
      (fun k => .ofNat k.toNat) fun hLow hHigh => ?_
    rw [UInt32.toNat_ofNat_of_lt' ((Int.toNat_lt hLow).mpr hHigh), Int.toNat_of_nonneg hLow]
  | uint16 =>
    refine exists_eq_some_iff_of_range
      (fun v => ⟨Int.natCast_nonneg _, Int.ofNat_lt.mpr (UInt16.toNat_lt v)⟩)
      (fun k => .ofNat k.toNat) fun hLow hHigh => ?_
    rw [UInt16.toNat_ofNat_of_lt' ((Int.toNat_lt hLow).mpr hHigh), Int.toNat_of_nonneg hLow]
  | uint8 =>
    refine exists_eq_some_iff_of_range
      (fun v => ⟨Int.natCast_nonneg _, Int.ofNat_lt.mpr (UInt8.toNat_lt v)⟩)
      (fun k => .ofNat k.toNat) fun hLow hHigh => ?_
    rw [UInt8.toNat_ofNat_of_lt' ((Int.toNat_lt hLow).mpr hHigh), Int.toNat_of_nonneg hLow]

/-! ## Properties -/

theorem reads_write (t : PropertyType) (v : t.Carrier) : t.Reads (t.write v) v := by
  cases t with
  | bool => exact .bool v
  | float => exact .float v
  | string => exact .string v
  | path => exact .path v
  | int64 | int32 | uint32 | uint16 | uint8 =>
    obtain ⟨n, hWrite, hNumber⟩ := write_of_number? (v := v) rfl
    rw [hWrite]
    exact .integer (congrArg some hNumber.symm)

/-- What is read is what is there. -/
theorem read?_eq_some_iff_reads {t : PropertyType} {p : Property} {v : t.Carrier} :
    t.read? p = some v ↔ t.Reads p v := by
  rw [read?_eq_some_iff]
  constructor
  · rintro rfl
    exact t.reads_write v
  · intro h
    cases h with
    | bool | float | string | path => rfl
    | @integer _ n _ hNumber =>
      obtain ⟨m, hWrite, hEq⟩ := write_of_number? hNumber
      rw [hWrite, Int64.toInt_inj.mp hEq]

/-- A property can be read as a type if it fits the type. -/
theorem exists_reads_iff {t : PropertyType} {p : Property} : (∃ v, t.Reads p v) ↔ t.Fits p := by
  constructor
  · rintro ⟨v, h⟩
    cases h with
    | bool | float | string => exact ⟨rfl, nofun, nofun⟩
    | path p => exact ⟨rfl, nofun, fun s hs => Property.path.inj hs ▸ p.valid⟩
    | @integer t n v hNumber =>
      have hRoom : t.HasRoom n.toInt := exists_number?_iff.mp ⟨v, hNumber⟩
      refine ⟨?_, fun m hm => Property.int.inj hm ▸ hRoom, nofun⟩
      cases t with
      | int64 | int32 | uint32 | uint16 | uint8 => rfl
      | bool | float | string | path => exact hRoom.elim
  · rintro ⟨hKind, hRoom, hPath⟩
    cases p with
    | int n =>
      obtain ⟨v, hNumber⟩ := exists_number?_iff.mpr (hRoom n rfl)
      exact ⟨v, .integer hNumber⟩
    | bool b => cases t <;> cases hKind; exact ⟨b, .bool b⟩
    | float x => cases t <;> cases hKind; exact ⟨x, .float x⟩
    | string s => cases t <;> cases hKind; exact ⟨s, .string s⟩
    | path s => cases t <;> cases hKind; exact ⟨⟨s, hPath s rfl⟩, .path ⟨s, hPath s rfl⟩⟩

theorem read?_eq_none_iff {t : PropertyType} {p : Property} : t.read? p = none ↔ ¬ t.Fits p := by
  rw [← exists_reads_iff, Option.eq_none_iff_forall_ne_some, not_exists]
  exact forall_congr' fun v => not_congr read?_eq_some_iff_reads

theorem reads_int_iff {t : PropertyType} {n : Int64} {v : t.Carrier} :
    t.Reads (.int n) v ↔ t.number? v = some n.toInt :=
  ⟨fun h => by cases h; assumption, .integer⟩

theorem fits_int_iff {t : PropertyType} {n : Int64} : t.Fits (.int n) ↔ t.HasRoom n.toInt := by
  simp only [← exists_reads_iff, reads_int_iff, exists_number?_iff]

end PropertyType

/-! ## Typed reads of a bag -/

namespace Bag

/-- What the typed reads of a key give, where `holds` says which property the bag has there. -/
structure ReadsAs (b : Bag) (key : String) (holds : Property → Prop) (t : PropertyType) :
    Prop where
  value : ∀ v, b.get t key = .ok v ↔ ∃ p, holds p ∧ t.Reads p v
  absent : b.get t key = .error (.keyNotFound key) ↔ ∀ p, ¬ holds p
  error : ∀ e, b.get t key = .error e ↔
    (e = .keyNotFound key ∧ ∀ p, ¬ holds p) ∨
      ∃ p, holds p ∧ ¬ t.Fits p ∧ e = .typeMismatch key t p.kind
  optional : ∀ v, b.getOptional? t key = .ok (some v) ↔ ∃ p, holds p ∧ t.Reads p v
  optional_absent : b.getOptional? t key = .ok none ↔ ∀ p, ¬ holds p
  optional_error : ∀ e, b.getOptional? t key = .error e ↔
    ∃ p, holds p ∧ ¬ t.Fits p ∧ e = .typeMismatch key t p.kind
  default : ∀ d v, b.getD t key d = v ↔
    (∃ p, holds p ∧ t.Reads p v) ∨ (v = d ∧ ∀ p, holds p → ¬ t.Fits p)

theorem readsAs {b : Bag} {key : String} {holds : Property → Prop}
    (h : ∀ p, b.find? key = some p ↔ holds p) (t : PropertyType) : b.ReadsAs key holds t := by
  obtain rfl : holds = fun p => b.find? key = some p := funext fun p => propext (h p).symm
  -- A read depends on what is found and on whether this can be read.
  cases hFind : b.find? key with
  | none => constructor <;> simp [get, getOptional?, getD, hFind, eq_comm]
  | some p =>
    cases hRead : t.read? p with
    | none =>
      have hFits : ¬ t.Fits p := PropertyType.read?_eq_none_iff.mp hRead
      have hReads : ∀ v, ¬ t.Reads p v :=
        fun v hv => hFits (PropertyType.exists_reads_iff.mp ⟨v, hv⟩)
      constructor <;> simp [get, getOptional?, getD, hFind, hRead, hFits, hReads, eq_comm]
    | some v =>
      have hFits : t.Fits p := PropertyType.exists_reads_iff.mp
        ⟨v, PropertyType.read?_eq_some_iff_reads.mp hRead⟩
      have hReads : ∀ v', t.Reads p v' ↔ v = v' := fun v' => by
        rw [← PropertyType.read?_eq_some_iff_reads, hRead, Option.some.injEq]
      constructor <;> simp [get, getOptional?, getD, hFind, hRead, hFits, hReads]

end Bag

end ModemLink
