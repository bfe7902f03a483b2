import ModemLink.Network.IpConfig
import ModemLink.Remote.Network

/-!
# Bearers

The operations on a bearer, the object that stands for one data connection, given by its path.

* `Bearer.apn`, `Bearer.ipType`, `Bearer.isActive`, …: what is known of it.
* `Bearer.activate`, `Bearer.disconnect`: commands.
* `Bearer.trafficStats`: the traffic of its network interface.
-/

namespace ModemLink.Bearer

open Bus (Interface.bearer Value)

/-- A property of the bearer. -/
def property {α : Type} (path name : String) (type : Bus.ValueType α) : Request α := do
  Program.connection
  Request.property .modemManager path Interface.bearer name type

/-- A command without arguments. -/
def command (path member : String) (failure : Bus.Fault → Error) : Request Unit := do
  Program.connection
  Request.command .modemManager path Interface.bearer member [] .nothing failure

/-- Brings the connection up. -/
def activate (path : String) : Request Unit :=
  command path "Connect" (.operation ("failed to connect bearer " ++ path))

/-- Takes the connection down. -/
def disconnect (path : String) : Request Unit := command path "Disconnect" .bus

/-- Whether the connection is up. -/
def isActive (path : String) : Request Bool := property path "Connected" .boolean

/-- What the connection was asked for with. -/
def settings (path : String) : Request Bag := do
  return .ofBus (← property path "Properties" .dictionary)

/-- The access point of the connection. -/
def apn (path : String) : Request String := do
  Program.ofExcept ((← settings path).get .string "apn")

/-- The address families that were asked for. -/
def ipType (path : String) : Request IpType := do
  return .ofCode (← Program.ofExcept ((← settings path).get .uint32 "ip-type"))

/-- The network interface of the connection. -/
def interface (path : String) : Request String := property path "Interface" .string

/-- The address configuration that a property tells for an address family. -/
def ipConfig (path name : String) (ipType : IpType) : Request (Option IpConfig) := do
  return IpConfig.ofBag? (.ofBus (← property path name .dictionary)) ipType

def ipv4Config (path : String) : Request (Option IpConfig) := ipConfig path "Ip4Config" .ipv4

def ipv6Config (path : String) : Request (Option IpConfig) := ipConfig path "Ip6Config" .ipv6

/-- The bytes that have passed the network interface of the connection. -/
def trafficStats (path : String) : Request TrafficStats := do
  let interface ← interface path
  Program.connection
  Network.provider.read interface

end ModemLink.Bearer
