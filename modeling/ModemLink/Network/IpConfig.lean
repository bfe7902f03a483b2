import ModemLink.Modem.Codes
import ModemLink.Property.Bag

/-!
# Address configuration

The addresses of a connection in one address family, read from the dictionary that a bearer reports.
-/

namespace ModemLink

/-- The address configuration of an active connection. -/
structure IpConfig where
  ipType : IpType
  address : String
  /-- How many leading bits of the address name the network. -/
  prefixLength : UInt32
  gateway : Option String
  dns1 : Option String
  dns2 : Option String
deriving DecidableEq, Repr

/-- The configuration in a dictionary, if it has an address and a prefix length. -/
def IpConfig.ofBag? (raw : Bag) (ipType : IpType) : Option IpConfig := do
  let address ← (raw.get .string "address").toOption
  let prefixLength ← (raw.get .uint32 "prefix").toOption
  let text key := (raw.get .string key).toOption
  return ⟨ipType, address, prefixLength, text "gateway", text "dns1", text "dns2"⟩

end ModemLink
