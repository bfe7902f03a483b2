import ModemLink.Error

/-!
# Credentials

The codes that unlock a SIM, and what a failed attempt to unlock it means.
-/

namespace ModemLink

/-- Which code an attempt to unlock a SIM used. -/
inductive Credential
  | pin
  | puk
deriving DecidableEq, Repr

namespace Credential

/-- The bus error of a wrong code. -/
def incorrectPassword : String :=
  "org.freedesktop.ModemManager1.Error.MobileEquipment.IncorrectPassword"

/-- The bus error of a malformed code. -/
def incorrectParameters : String :=
  "org.freedesktop.ModemManager1.Error.MobileEquipment.IncorrectParameters"

/-- What went wrong, by the name of the bus error, if it has one, and the text of the failure. -/
def failure (c : Credential) (name : Option String) (detail : String) : Error :=
  if name = some incorrectPassword then
    match c with
    | pin => .incorrectPin
    | puk => .incorrectPuk
  else if name = some incorrectParameters then .invalidCredentialFormat
  else .simUnlockFailed detail

/-- What a failed call to unlock means. -/
def failureOf (c : Credential) (fault : Bus.Fault) : Error := c.failure fault.name? fault.text

end Credential

end ModemLink
