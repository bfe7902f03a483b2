import ModemLink.Bus.Fault
import ModemLink.Modem.State
import ModemLink.Property.Type
import ModemLink.Radio.Technology

/-!
# Errors

What can go wrong in an operation, by cause, and the sentence that says so (`Error.message`).
-/

namespace ModemLink

inductive Error
  /-- A call on the bus failed. -/
  | bus (fault : Bus.Fault)
  /-- A call on the bus failed while attempting `context`. -/
  | operation (context : String) (fault : Bus.Fault)
  /-- The bus or the modem daemon cannot be reached. -/
  | connectionFailed (reason : String)
  /-- The modem is not in a state that allows the operation. -/
  | preconditionNotMet (action : String) (required : Requirement) (actual : State)
  /-- Records of this technology are not decoded. -/
  | unsupportedTechnology (technology : Technology)
  /-- The property was not reported. -/
  | keyNotFound (key : String)
  /-- The property was reported as a value of another type. -/
  | typeMismatch (key : String) (expected : PropertyType) (found : Kind)
  /-- The field is not a hexadecimal number within its bounds. -/
  | invalidHex (field value : String)
  /-- A newer await request took the place of this one. -/
  | cancelled
  /-- The time for the operation ran out. -/
  | timeout
  /-- The modem has no identity by which to recognise it when it comes back. -/
  | unidentifiedModem (path : String)
  /-- The manager of the handle no longer exists. -/
  | managerDropped
  | incorrectPin
  | incorrectPuk
  /-- The PIN or PUK is malformed. -/
  | invalidCredentialFormat
  /-- Unlocking the SIM failed for another reason. -/
  | simUnlockFailed (reason : String)
  /-- The text is not a network time. -/
  | invalidNetworkTime (text : String)
deriving DecidableEq, Repr

namespace Error

/-- The sentence that tells a user what went wrong. -/
def message : Error → String
  | bus fault => "D-Bus error: " ++ fault.text
  | operation context fault => context ++ ": " ++ fault.text
  | connectionFailed reason => "failed to connect to ModemManager: " ++ reason
  | preconditionNotMet action required actual =>
    "cannot " ++ action ++ ": modem is " ++ actual.text ++ ", requires " ++ required.text
  | unsupportedTechnology t => "technology " ++ t.text ++ " is not supported"
  | keyNotFound key => "property '" ++ key ++ "' not present"
  | typeMismatch key expected found =>
    "property '" ++ key ++ "' is a " ++ found.text ++ ", expected " ++ expected.text
  | invalidHex field value => "invalid hex value '" ++ value ++ "' for '" ++ field ++ "'"
  | cancelled => "cancelled: a newer await request replaced this one"
  | timeout => "operation timed out"
  | unidentifiedModem path => "modem " ++ path ++ " has no identity"
  | managerDropped => "the ModemManager connection has been dropped"
  | incorrectPin => "incorrect PIN"
  | incorrectPuk => "incorrect PUK"
  | invalidCredentialFormat => "invalid PIN or PUK format"
  | simUnlockFailed reason => "SIM unlock failed: " ++ reason
  | invalidNetworkTime text => "invalid network time '" ++ text ++ "'"

end Error

/-- Checks a state against what an operation requires of it. -/
def Requirement.check (r : Requirement) (action : String) (actual : State) : Except Error Unit :=
  if r.isMetBy actual then .ok () else .error (.preconditionNotMet action r actual)

end ModemLink
