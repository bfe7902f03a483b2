import ModemLink.Bus.Query
import ModemLink.Modem.Credential

/-!
# SIM cards

The operations on a SIM card, given by its path.

* `Sim.imsi`, `Sim.iccid`, …: what is known of it.
* `Sim.sendPin`, `Sim.sendPuk`: unlocks it.
-/

namespace ModemLink.Sim

open Bus (Interface.sim Value)

/-- A property of the card. -/
def property {α : Type} (path name : String) (type : Bus.ValueType α) : Request α := do
  Program.connection
  Request.property .modemManager path Interface.sim name type

/-- Tries to unlock the card. -/
def unlock (path member : String) (codes : List String) (credential : Credential) :
    Request Unit := do
  Program.connection
  Request.command .modemManager path Interface.sim member (codes.map .string) .nothing
    credential.failureOf

/-- Unlocks the card with its PIN. -/
def sendPin (path pin : String) : Request Unit := unlock path "SendPin" [pin] .pin

/-- Unlocks a blocked card with its PUK and gives it a new PIN. -/
def sendPuk (path puk pin : String) : Request Unit := unlock path "SendPuk" [puk, pin] .puk

/-- Whether the card is the one in use. -/
def isActive (path : String) : Request Bool := property path "Active" .boolean

/-- The identity of the subscriber. -/
def imsi (path : String) : Request String := property path "Imsi" .string

/-- The serial number of the card. -/
def iccid (path : String) : Request String := property path "SimIdentifier" .string

/-- The network identifier of the home network. -/
def homePlmn (path : String) : Request String := property path "OperatorIdentifier" .string

/-- The name of the home network. -/
def operatorName (path : String) : Request String := property path "OperatorName" .string

end ModemLink.Sim
