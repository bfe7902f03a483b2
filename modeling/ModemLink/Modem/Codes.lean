/-!
# Power, locks and address families

The remaining enumerations of a modem and its connections, each with its numeric codes, the words
it is shown as and the names it is recorded under.
-/

namespace ModemLink

/-- How much power a modem draws. -/
inductive PowerState
  | unknown
  | off
  /-- Standby, with the radio off. -/
  | low
  | on
deriving DecidableEq, Repr

namespace PowerState

def all : List PowerState := [unknown, off, low, on]

def code : PowerState → UInt32
  | unknown => 0
  | off => 1
  | low => 2
  | on => 3

def ofCode (code : UInt32) : PowerState :=
  match code.toNat with
  | 1 => off
  | 2 => low
  | 3 => on
  | _ => unknown

def text : PowerState → String
  | unknown => "unknown"
  | off => "off"
  | low => "low"
  | on => "on"

def name : PowerState → String
  | unknown => "Unknown"
  | off => "Off"
  | low => "Low"
  | on => "On"

end PowerState

/-- Why a modem is locked, if it is. -/
inductive LockState
  /-- Not known; the modem may not be ready yet. -/
  | unknown
  | unlocked
  | simPin
  /-- A second PIN guards some features; the modem can be used. -/
  | simPin2
  | simPuk
  | simPuk2
  /-- A lock with another code. -/
  | other (code : UInt32)
deriving DecidableEq, Repr

namespace LockState

/-- The locks that are known by name. -/
def named : List LockState := [unknown, unlocked, simPin, simPin2, simPuk, simPuk2]

def ofCode (code : UInt32) : LockState :=
  match code.toNat with
  | 0 => unknown
  | 1 => unlocked
  | 2 => simPin
  | 3 => simPin2
  | 4 => simPuk
  | 5 => simPuk2
  | _ => other code

/-- Whether the lock keeps the modem from normal use. -/
def isLocked : LockState → Bool
  | unlocked | simPin2 => false
  | _ => true

def text : LockState → String
  | unknown => "unknown"
  | unlocked => "unlocked"
  | simPin => "SIM PIN"
  | simPin2 => "SIM PIN2"
  | simPuk => "SIM PUK"
  | simPuk2 => "SIM PUK2"
  | other code => "other lock (" ++ toString code.toNat ++ ")"

def name : LockState → String
  | unknown => "Unknown"
  | unlocked => "Unlocked"
  | simPin => "SimPin"
  | simPin2 => "SimPin2"
  | simPuk => "SimPuk"
  | simPuk2 => "SimPuk2"
  | other code => "Other(" ++ toString code.toNat ++ ")"

end LockState

/-- The address families of a connection. -/
inductive IpType
  | unknown
  | ipv4
  | ipv6
  | ipv4AndIpv6
deriving DecidableEq, Repr

namespace IpType

def all : List IpType := [unknown, ipv4, ipv6, ipv4AndIpv6]

/-- A connection asks for both families unless told otherwise. -/
instance : Inhabited IpType := ⟨ipv4AndIpv6⟩

def code : IpType → UInt32
  | unknown => 0
  | ipv4 => 1
  | ipv6 => 2
  | ipv4AndIpv6 => 4

def ofCode (code : UInt32) : IpType :=
  match code.toNat with
  | 1 => ipv4
  | 2 => ipv6
  | 4 => ipv4AndIpv6
  | _ => unknown

def text : IpType → String
  | unknown => "unknown"
  | ipv4 => "IPv4"
  | ipv6 => "IPv6"
  | ipv4AndIpv6 => "IPv4+IPv6"

def name : IpType → String
  | unknown => "Unknown"
  | ipv4 => "Ipv4"
  | ipv6 => "Ipv6"
  | ipv4AndIpv6 => "Ipv4AndIpv6"

end IpType

/-- The bytes that have passed a network interface. -/
structure TrafficStats where
  rxBytes : UInt64
  txBytes : UInt64
deriving DecidableEq, Repr

/-- Counters start at zero. -/
instance : Inhabited TrafficStats := ⟨⟨0, 0⟩⟩

end ModemLink
