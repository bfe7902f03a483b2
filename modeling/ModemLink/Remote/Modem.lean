import ModemLink.Modem.Codes
import ModemLink.Modem.Config
import ModemLink.Network.Time
import ModemLink.Radio.Cell
import ModemLink.Remote.Bearer

/-!
# Modems

The operations on a modem, given by its path.

An operation that is guarded by a state reads the state first and asks for nothing else unless the
state meets the requirement.

* `Modem.require`: the guard.
* `Modem.state`, `Modem.technology`, `Modem.signal`, `Modem.location`, …: what is known of a modem.
* `Modem.setPowerState`, `Modem.enable`, `Modem.connect`, `Modem.reset`: commands.
-/

namespace ModemLink.Modem

open Bus (Interface.modem Interface.modem3gpp Interface.signal Interface.location Interface.time
  Value)

/-- A property of one of the modem's interfaces. -/
def property {α : Type} (path interface name : String) (type : Bus.ValueType α) : Request α := do
  Program.connection
  Request.property .modemManager path interface name type

/-- A command of one of the modem's interfaces. -/
def command {α : Type} (path interface member : String) (arguments : List Value)
    (reply : Bus.BodyType α) (failure : Bus.Fault → Error) : Request α := do
  Program.connection
  Request.command .modemManager path interface member arguments reply failure

/-! ## Identity -/

def manufacturer (path : String) : Request String :=
  property path Interface.modem "Manufacturer" .string

def model (path : String) : Request String := property path Interface.modem "Model" .string

def firmwareVersion (path : String) : Request String :=
  property path Interface.modem "Revision" .string

def imei (path : String) : Request String := property path Interface.modem3gpp "Imei" .string

/-- The first of the modem's own telephone numbers. -/
def phoneNumber (path : String) : Request (Option String) := do
  return (← property path Interface.modem "OwnNumbers" .strings).head?

/-! ## State -/

def state (path : String) : Request State := do
  return .ofCode (← property path Interface.modem "State" .int32)

/-- Reads the state and fails unless it meets a requirement. -/
def require (path : String) (r : Requirement) (action : String) : Request Unit := do
  Program.ofExcept (r.check action (← state path))

def isEnabled (path : String) : Request Bool := do
  return decide (State.enabled ≤ (← state path))

def isRegistered (path : String) : Request Bool := do
  return decide (State.registered ≤ (← state path))

def isConnected (path : String) : Request Bool := do
  return (← state path) = .connected

def lockState (path : String) : Request LockState := do
  return .ofCode (← property path Interface.modem "UnlockRequired" .uint32)

def isLocked (path : String) : Request Bool := do
  return (← lockState path).isLocked

def enable (path : String) (on : Bool) : Request Unit :=
  command path Interface.modem "Enable" [.boolean on] .nothing .bus

def reset (path : String) : Request Unit :=
  command path Interface.modem "Reset" [] .nothing .bus

/-! ## Power -/

def powerState (path : String) : Request PowerState := do
  return .ofCode (← property path Interface.modem "PowerState" .uint32)

/-- Changes the power of a disabled modem. -/
def setPowerState (path : String) (p : PowerState) : Request Unit := do
  require path (.exactly .disabled) "change power state"
  command path Interface.modem "SetPowerState" [.uint32 p.code] .nothing
    (.operation ("failed to set power state to " ++ p.text))

/-! ## SIM and connections -/

/-- The path of the SIM in use. -/
def activeSim (path : String) : Request (Option String) := do
  let sim ← property path Interface.modem "Sim" .path
  return if sim = Bus.noObject then none else some sim

/-- The paths of the modem's bearers. -/
def connections (path : String) : Request (List String) :=
  property path Interface.modem "Bearers" .paths

/-- The first of some bearers whose connection is up. -/
def firstActive : List String → Request (Option String)
  | [] => return none
  | bearer :: rest => do
    if ← Bearer.isActive bearer then return some bearer else firstActive rest

/-- The path of the first bearer whose connection is up. -/
def activeConnection (path : String) : Request (Option String) := do
  firstActive (← connections path)

/-- Creates a bearer for an access point and brings its connection up. -/
def connect (path apn : String) (ipType : IpType) : Request String := do
  let bearer ← command path Interface.modem "CreateBearer"
    [.dictionary [("apn", .string apn), ("ip-type", .uint32 ipType.code)]]
    (.single .path) (.operation ("failed to create bearer for APN '" ++ apn ++ "'"))
  Bearer.activate bearer
  return bearer

/-! ## Network -/

/-- The identifier of the network that the modem is registered in. -/
def operatorPlmn (path : String) : Request String :=
  property path Interface.modem3gpp "OperatorCode" .string

/-- The name of the network that the modem is registered in. -/
def operatorName (path : String) : Request String :=
  property path Interface.modem3gpp "OperatorName" .string

/-- The generations of the access technologies in use. -/
def technology (path : String) : Request Technology := do
  return .ofAccess (← property path Interface.modem "AccessTechnologies" .uint32)

/-- The name of the property that tells the signal values of a generation. -/
def reportName : Generation → String
  | .lte => "Lte"
  | .nr5g => "Nr5g"

/-- Reads the signal values of a generation. -/
def readSignal (path : String) (g : Generation) : Request Signal := do
  let report ←
    Request.property .modemManager path Interface.signal (reportName g) .dictionary
  Program.ofExcept (Signal.decode (.ofBus report) g.technology)

/-- Makes the modem report signal values every so many milliseconds. -/
def setupSignal (path : String) (interval : Nat) : Request Unit :=
  Request.command .modemManager path Interface.signal "Setup" [.uint32 (refreshSeconds interval)]
    .nothing .bus

/-- The signal quality in the technology in use. Reports are turned on if they are off. -/
def signal (path : String) (config : Config) : Request Signal := do
  require path (.atLeast .registered) "access signal quality"
  Program.connection
  let rate ← Request.property .modemManager path Interface.signal "Rate" .uint32
  if rate = 0 then setupSignal path config.signalRefresh
  readSignal path (← Program.ofExcept (← technology path).generation)

/-- The serving cell and its neighbours, as far as they are of a known generation. -/
def cellInfo (path : String) : Request (List CellInfo) := do
  let records ←
    command path Interface.modem "GetCellInfo" [] (.single .dictionaries) .bus
  Program.ofExcept (CellInfo.decodeAll (records.map .ofBus))

/-- The number of the location source that tells the serving cell. -/
def areaSource : UInt32 := 1

/-- The text of the source that tells the serving cell. It may stand in one variant more. -/
def areaText? (sources : List (UInt32 × Value)) : Option String :=
  match sources.lookup areaSource with
  | some (.string s) => some s
  | some (.variant (.string s)) => some s
  | _ => none

/-- Reads what the location sources tell. -/
def readSources (path : String) : Request (List (UInt32 × Value)) :=
  Request.command .modemManager path Interface.location "GetLocation" []
    (.single .numbered) .bus

/-- The location of the serving cell, if the modem tells it in a readable form. -/
def location (path : String) : Request (Option Location) := do
  require path (.atLeast .registered) "access cell location"
  Program.connection
  match areaText? (← readSources path) with
  | none => return none
  | some text => Program.ofExcept (Location.ofReport text (← technology path))

/-- The time that the network tells. -/
def networkTime (path : String) : Request String := do
  require path (.atLeast .enabled) "get network time"
  command path Interface.time "GetNetworkTime" [] (.single .string) .bus

/-- The time that the network tells, in seconds since the beginning of 1970. -/
def networkTimeEpoch (path : String) : Request Int := do
  Program.ofExcept (NetworkTime.epochSeconds (← networkTime path))

end ModemLink.Modem
