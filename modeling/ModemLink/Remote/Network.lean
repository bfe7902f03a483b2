import ModemLink.Bus.Query
import ModemLink.Traffic.Observation

/-!
# Network devices

The network daemon knows the devices behind network interfaces and counts their traffic. A device is
looked up anew for every use, because an interface may come to stand for another device.

* `Network.provider`: the daemon as a source of byte counters.
-/

namespace ModemLink.Network

open Bus (Interface.network Interface.statistics Interface.properties Value)

/-- The path of the device behind a network interface. -/
def devicePath (interface : String) : Request String :=
  Request.command .networkManager Bus.networkPath Interface.network "GetDeviceByIpIface"
    [.string interface] (.single .path)
    (.operation ("no NetworkManager device for interface '" ++ interface ++ "'"))

/-- A counter of the device at a path. -/
def counter (device name : String) : Request UInt64 :=
  Request.property .networkManager device Interface.statistics name .uint64

/-- The counters of a network interface. -/
def read (interface : String) : Request TrafficStats := do
  let device ← devicePath interface
  let rxBytes ← counter device "RxBytes"
  let txBytes ← counter device "TxBytes"
  return ⟨rxBytes, txBytes⟩

/-- Sets how often the counters of a network interface are refreshed, in milliseconds. -/
def setRefreshRate (interface : String) (interval : UInt32) : Request Unit := do
  let device ← devicePath interface
  Request.write .networkManager device Interface.statistics "RefreshRateMs" (.uint32 interval)

/-- Asks for the property changes of the device behind a network interface. -/
def refreshes (interface : String) : Request (Option Bus.Subscription) := do
  let device ← devicePath interface
  Request.subscribe (.changes .networkManager device)

/-- The network daemon as a source of byte counters. -/
def provider : Traffic.Provider Bus.Query Bus.Reply (Option Bus.Subscription) :=
  { read, setRefreshRate, refreshes }

end ModemLink.Network
