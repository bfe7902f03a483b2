import ModemLink.Modem.State
import ModemLink.Network.IpConfig

/-!
# Recorded forms

Enumerations and records as trees of plain data, for storage outside the program.

A case of an enumeration is its name, or a record with the name as its one field and what the case
carries as the value. A structure is a record of its fields, of which unknown ones are passed over,
or a list of their values in order. A field that may be absent is null or, in a record, left out.

* `recordState`, …: the data of a value; `stateOf?`, …: the value of data.
-/

namespace ModemLink.Record

/-- Plain data. Numbers that are not integers have no content here. -/
inductive Data
  | null
  | bool (b : Bool)
  | int (n : Int)
  | fraction
  | text (s : String)
  | list (items : List Data)
  | record (fields : List (String × Data))
deriving Inhabited

namespace Data

def isNull : Data → Bool
  | null => true
  | _ => false

/-- The name of a case and what it carries, if anything. -/
def case? : Data → Option (String × Option Data)
  | text name => some (name, none)
  | record [(name, content)] => some (name, some content)
  | _ => none

/-- The name of a case that carries nothing. -/
def plainCase? (d : Data) : Option String :=
  match d.case? with
  | some (name, none) => some name
  | some (name, some content) => if content.isNull then some name else none
  | none => none

/-- An integer from zero to below `bound`. -/
def natBelow? (bound : Nat) : Data → Option Nat
  | int n => if 0 ≤ n ∧ n < bound then some n.toNat else none
  | _ => none

def uint32? (d : Data) : Option UInt32 := (d.natBelow? UInt32.size).map .ofNat

def uint64? (d : Data) : Option UInt64 := (d.natBelow? UInt64.size).map .ofNat

def text? : Data → Option String
  | text s => some s
  | _ => none

/-- A value that may be null. -/
def optional? {α : Type} (read : Data → Option α) (d : Data) : Option (Option α) :=
  if d.isNull then some none else (read d).map some

/-- The values of a structure's fields, in the order of `names`: `none` for a field left out. -/
def fields? (names : List String) : Data → Option (List (Option Data))
  | list items => if items.length = names.length then some (items.map some) else none
  | record fields => some (names.map fun name => fields.lookup name)
  | _ => none

end Data

/-! ## Enumerations -/

/-- The case of an enumeration, given with the names of its cases, that data names. -/
def caseOf? {α : Type} (cases : List α) (name : α → String) (d : Data) : Option α :=
  d.plainCase?.bind fun n => cases.find? fun c => name c == n

def recordState (s : State) : Data := .text s.name

def stateOf? : Data → Option State := caseOf? State.all State.name

def recordPower (p : PowerState) : Data := .text p.name

def powerOf? : Data → Option PowerState := caseOf? PowerState.all PowerState.name

def recordIpType (t : IpType) : Data := .text t.name

def ipTypeOf? : Data → Option IpType := caseOf? IpType.all IpType.name

def recordLock : LockState → Data
  | .other code => .record [("Other", .int code.toNat)]
  | l => .text l.name

def lockOf? (d : Data) : Option LockState :=
  match d.case? with
  | some ("Other", some content) => content.uint32?.map .other
  | _ => caseOf? LockState.named LockState.name d

/-! ## Structures -/

def recordStats (s : TrafficStats) : Data :=
  .record [("rx_bytes", .int s.rxBytes.toNat), ("tx_bytes", .int s.txBytes.toNat)]

def statsOf? (d : Data) : Option TrafficStats :=
  match d.fields? ["rx_bytes", "tx_bytes"] with
  | some [some rx, some tx] => do return ⟨← rx.uint64?, ← tx.uint64?⟩
  | _ => none

/-- A text, or null for none. -/
def recordOptional : Option String → Data
  | none => .null
  | some s => .text s

def recordIpConfig (c : IpConfig) : Data :=
  .record [("ip_type", recordIpType c.ipType), ("address", .text c.address),
    ("prefix", .int c.prefixLength.toNat), ("gateway", recordOptional c.gateway),
    ("dns1", recordOptional c.dns1), ("dns2", recordOptional c.dns2)]

def ipConfigOf? (d : Data) : Option IpConfig :=
  let optional (field : Option Data) := (field.getD .null).optional? Data.text?
  match d.fields? ["ip_type", "address", "prefix", "gateway", "dns1", "dns2"] with
  | some [some ipType, some address, some length, gateway, dns1, dns2] => do
    return ⟨← ipTypeOf? ipType, ← address.text?, ← length.uint32?, ← optional gateway,
      ← optional dns1, ← optional dns2⟩
  | _ => none

end ModemLink.Record
