import ModemLink.Remote.Sim
import ModemLink.Remote.Watch

/-!
# Calls on handles

All that can be asked of a handle to a modem, a SIM card or a bearer, as data. Each kind of handle
takes some of the calls, and `is active` and `operator name` are taken by two kinds.

* `Call.onModem?`, `Call.onSim?`, `Call.onBearer?`: what a call does on a handle of a kind, if the
  handle takes it.
-/

namespace ModemLink

/-- The kinds of observers. Handles that share observers share one slot for each kind. -/
inductive WatchKind
  | state
  | signal
  | location
  | traffic
deriving DecidableEq, Repr

/-- What is asked of a handle. -/
inductive Call
  | manufacturer
  | model
  | imei
  | firmwareVersion
  | phoneNumber
  | state
  | isEnabled
  | isRegistered
  | isConnected
  | lockState
  | isLocked
  | enable (on : Bool)
  | reset
  | powerState
  | setPowerState (p : PowerState)
  | activeSim
  | connections
  | activeConnection
  | connect (accessPoint : String) (family : IpType)
  | operatorPlmn
  | operatorName
  | technology
  | signal
  | cellInfo
  | location
  | networkTime
  | networkTimeEpoch
  | observeState
  /-- The interval is in milliseconds. -/
  | observeSignal (interval : Nat)
  | observeLocation
  | sendPin (pin : String)
  | sendPuk (puk pin : String)
  | isActive
  | imsi
  | iccid
  | homePlmn
  | disconnect
  | apn
  | ipType
  | interface
  | ipv4Config
  | ipv6Config
  | trafficStats
  /-- The interval is in milliseconds. -/
  | observeTraffic (interval : UInt32)
deriving Repr

namespace Call

/-- What a call gives. -/
inductive Result
  | nothing
  | flag (b : Bool)
  | number (n : Int)
  | text (s : String)
  | optionalText (s : Option String)
  | technology (t : Technology)
  | signal (s : Signal)
  | cells (l : List CellInfo)
  | location (l : Option Location)
  | ipConfig (c : Option IpConfig)
  | traffic (s : TrafficStats)
  /-- A SIM card, by its path. -/
  | sim (path : Option String)
  /-- A bearer, by its path. -/
  | bearer (path : Option String)
  | bearers (paths : List String)
  /-- An observer to register in the slot of a kind. -/
  | watch (kind : WatchKind) (w : Watch)

/-- What a call does on the modem at a path. -/
def onModem? (config : Config) (path : String) : Call → Option (Request Result)
  | manufacturer => some do return .text (← Modem.manufacturer path)
  | model => some do return .text (← Modem.model path)
  | imei => some do return .text (← Modem.imei path)
  | firmwareVersion => some do return .text (← Modem.firmwareVersion path)
  | phoneNumber => some do return .optionalText (← Modem.phoneNumber path)
  | state => some do return .text (← Modem.state path).text
  | isEnabled => some do return .flag (← Modem.isEnabled path)
  | isRegistered => some do return .flag (← Modem.isRegistered path)
  | isConnected => some do return .flag (← Modem.isConnected path)
  | lockState => some do return .text (← Modem.lockState path).text
  | isLocked => some do return .flag (← Modem.isLocked path)
  | enable on => some do
    Modem.enable path on
    return .nothing
  | reset => some do
    Modem.reset path
    return .nothing
  | powerState => some do return .text (← Modem.powerState path).text
  | setPowerState p => some do
    Modem.setPowerState path p
    return .nothing
  | activeSim => some do return .sim (← Modem.activeSim path)
  | connections => some do return .bearers (← Modem.connections path)
  | activeConnection => some do return .bearer (← Modem.activeConnection path)
  | connect accessPoint family => some do
    return .bearer (some (← Modem.connect path accessPoint family))
  | operatorPlmn => some do return .text (← Modem.operatorPlmn path)
  | operatorName => some do return .text (← Modem.operatorName path)
  | technology => some do return .technology (← Modem.technology path)
  | signal => some do return .signal (← Modem.signal path config)
  | cellInfo => some do return .cells (← Modem.cellInfo path)
  | location => some do return .location (← Modem.location path)
  | networkTime => some do return .text (← Modem.networkTime path)
  | networkTimeEpoch => some do return .number (← Modem.networkTimeEpoch path)
  | observeState => some do return .watch .state (← Modem.watchState path)
  | observeSignal interval => some do return .watch .signal (← Modem.watchSignal path interval)
  | observeLocation => some do return .watch .location (← Modem.watchLocation path)
  | _ => none

/-- What a call does on the SIM card at a path. -/
def onSim? (path : String) : Call → Option (Request Result)
  | sendPin pin => some do
    Sim.sendPin path pin
    return .nothing
  | sendPuk puk pin => some do
    Sim.sendPuk path puk pin
    return .nothing
  | isActive => some do return .flag (← Sim.isActive path)
  | imsi => some do return .text (← Sim.imsi path)
  | iccid => some do return .text (← Sim.iccid path)
  | homePlmn => some do return .text (← Sim.homePlmn path)
  | operatorName => some do return .text (← Sim.operatorName path)
  | _ => none

/-- What a call does on the bearer at a path. -/
def onBearer? (path : String) : Call → Option (Request Result)
  | disconnect => some do
    Bearer.disconnect path
    return .nothing
  | isActive => some do return .flag (← Bearer.isActive path)
  | apn => some do return .text (← Bearer.apn path)
  | ipType => some do return .text (← Bearer.ipType path).text
  | interface => some do return .text (← Bearer.interface path)
  | ipv4Config => some do return .ipConfig (← Bearer.ipv4Config path)
  | ipv6Config => some do return .ipConfig (← Bearer.ipv6Config path)
  | trafficStats => some do return .traffic (← Bearer.trafficStats path)
  | observeTraffic interval => some do return .watch .traffic (← Bearer.watchTraffic path interval)
  | _ => none

end Call

end ModemLink
