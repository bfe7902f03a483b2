import ModemLink.Text.Beginning
import ModemLink.Text.Segments

/-!
# Names on the message bus

Object paths and interface names, with the rules that make a text one of them, and the services,
paths and interfaces this library speaks to.

* `isObjectPath`: a slash alone, or non-empty segments of ASCII letters, digits and underscores,
  each after a slash.
* `isInterfaceName`: at least two non-empty segments between dots, none beginning with a digit.
-/

namespace ModemLink.Bus

open Text (segments)

/-- ASCII letters, digits and the underscore. -/
def isNameChar (c : Char) : Bool :=
  ('a' ≤ c && c ≤ 'z') || ('A' ≤ c && c ≤ 'Z') || ('0' ≤ c && c ≤ '9') || c == '_'

/-- Whether a text is an object path. -/
def isObjectPath (s : String) : Bool :=
  match s.toList with
  | '/' :: rest =>
    rest.isEmpty || (segments '/' rest).all fun part => !part.isEmpty && part.all isNameChar
  | _ => false

/-- Whether a text is an interface name. -/
def isInterfaceName (s : String) : Bool :=
  let parts := segments '.' s.toList
  s.utf8ByteSize ≤ 255 && 2 ≤ parts.length && parts.all fun part =>
    match part with
    | [] => false
    | c :: _ => !('0' ≤ c && c ≤ '9') && part.all isNameChar

/-- A text that is an object path. -/
structure ObjectPath where
  text : String
  valid : isObjectPath text = true
deriving DecidableEq

/-- The object path with the given text, if it is one. -/
def ObjectPath.ofText? (s : String) : Option ObjectPath :=
  if h : isObjectPath s = true then some ⟨s, h⟩ else none

theorem ObjectPath.ofText?_text (p : ObjectPath) : ofText? p.text = some p := by
  simp [ofText?, p.valid]

/-- The services on the bus that take part. -/
inductive Service
  /-- The daemon that controls the modems. -/
  | modemManager
  /-- The daemon that counts the traffic of network interfaces. -/
  | networkManager
deriving DecidableEq, Repr

/-- The well-known name of a service. -/
def Service.busName : Service → String
  | .modemManager => "org.freedesktop.ModemManager1"
  | .networkManager => "org.freedesktop.NetworkManager"

/-! ## Paths -/

/-- The object that stands for the modem daemon and manages all its objects. -/
def managerPath : String := "/org/freedesktop/ModemManager1"

/-- What the paths of all modems begin with. -/
def modemPathStart : String := "/org/freedesktop/ModemManager1/Modem/"

/-- The object that stands for the network daemon. -/
def networkPath : String := "/org/freedesktop/NetworkManager"

/-- The path that stands for no object. -/
def noObject : String := "/"

/-- The service that sends the signals of an object. All paths that begin like that of the network
daemon are its own. -/
def Service.ofPath (path : String) : Service :=
  if Text.beginsWith path networkPath then .networkManager else .modemManager

/-! ## Interfaces -/

namespace Interface

def manager : String := "org.freedesktop.ModemManager1"
def modem : String := "org.freedesktop.ModemManager1.Modem"
def modem3gpp : String := "org.freedesktop.ModemManager1.Modem.Modem3gpp"
def signal : String := "org.freedesktop.ModemManager1.Modem.Signal"
def location : String := "org.freedesktop.ModemManager1.Modem.Location"
def time : String := "org.freedesktop.ModemManager1.Modem.Time"
def sim : String := "org.freedesktop.ModemManager1.Sim"
def bearer : String := "org.freedesktop.ModemManager1.Bearer"
def network : String := "org.freedesktop.NetworkManager"
def statistics : String := "org.freedesktop.NetworkManager.Device.Statistics"
def objectManager : String := "org.freedesktop.DBus.ObjectManager"
def properties : String := "org.freedesktop.DBus.Properties"

end Interface

end ModemLink.Bus
