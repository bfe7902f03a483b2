import ModemLink.Registry.Basic
import ModemLink.Remote.Modem
import ModemLink.Text.Beginning

/-!
# Announcements

The modem daemon announces the objects that it has and the interfaces that they gain, and tells
which interfaces they lose. An object below the path of modems is a modem while it has the interface
of modems.

The identity of a modem is the IMEI that its announcement carries, or else the equipment identifier
that it carries, or else the IMEI that the modem itself tells. A modem of which none of these is
known has the empty identity.

* `Announcement.isModem`, `Removal.removesModem`: whether a modem comes or goes.
* `Announcement.identity?`, `Announcement.identify`: the identity of an announced modem.
-/

namespace ModemLink

open Bus (Value)

/-- An object with interfaces that it has gained, and their properties. -/
structure Announcement where
  path : String
  interfaces : List (String × Bag)

namespace Announcement

/-- The announcement of an object whose properties are given as the bus carries them. -/
def ofBus (path : String) (interfaces : List (String × List (String × Value))) : Announcement :=
  ⟨path, interfaces.map fun i => (i.1, .ofBus i.2)⟩

/-- The announcement in the arguments of a signal. -/
def ofArguments? : List Value → Option Announcement
  | [.path path, .interfaces interfaces] =>
    if interfaces.all fun i => Bus.isInterfaceName i.1 then some (ofBus path interfaces) else none
  | _ => none

/-- Whether what is announced is a modem. -/
def isModem (a : Announcement) : Bool :=
  Text.beginsWith a.path Bus.modemPathStart && a.interfaces.any fun i => i.1 == Bus.Interface.modem

/-- A property of the announcement that is a text and not empty. -/
def text? (a : Announcement) (interface key : String) : Option String :=
  match a.interfaces.lookup interface with
  | none => none
  | some properties => (properties.get .string key).toOption.filter (!String.isEmpty ·)

theorem text?_eq_some_iff {a : Announcement} {interface key text : String} :
    a.text? interface key = some text ↔ ∃ properties, a.interfaces.lookup interface =
      some properties ∧ properties.find? key = some (.string text) ∧ text ≠ "" := by
  have hRead : ∀ properties : Bag, (properties.get .string key).toOption = some text ↔
      properties.find? key = some (.string text) := by
    intro properties
    unfold Bag.get
    cases properties.find? key with
    | none => simp [Except.toOption]
    | some p => cases p <;> simp [PropertyType.read?, Except.toOption]
  unfold text?
  cases a.interfaces.lookup interface with
  | none => simp
  | some properties => simp [Option.filter_eq_some_iff, hRead]

/-- The identity that the announcement carries. -/
def identity? (a : Announcement) : Option String :=
  (a.text? Bus.Interface.modem3gpp "Imei").or (a.text? Bus.Interface.modem "EquipmentIdentifier")

theorem identity?_eq_some_iff {a : Announcement} {identity : String} :
    a.identity? = some identity ↔ a.text? Bus.Interface.modem3gpp "Imei" = some identity ∨
      a.text? Bus.Interface.modem3gpp "Imei" = none ∧
        a.text? Bus.Interface.modem "EquipmentIdentifier" = some identity :=
  Option.or_eq_some_iff

/-- The identity of an announced modem, which is asked if the announcement does not tell it. -/
def identify (a : Announcement) : Request String :=
  match a.identity? with
  | some identity => return identity
  | none => do
    match ← (Modem.imei a.path).attempt with
    | .ok identity => return identity
    | .error _ => return ""

end Announcement

/-- An object with the names of interfaces that it has lost. -/
structure Removal where
  path : String
  interfaces : List String

namespace Removal

/-- The removal in the arguments of a signal. -/
def ofArguments? : List Value → Option Removal
  | [.path path, .strings interfaces] =>
    if interfaces.all Bus.isInterfaceName then some ⟨path, interfaces⟩ else none
  | _ => none

/-- Whether what has gone is a modem. -/
def removesModem (r : Removal) : Bool :=
  Text.beginsWith r.path Bus.modemPathStart && r.interfaces.contains Bus.Interface.modem

end Removal

end ModemLink
