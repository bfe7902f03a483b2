/-!
# Faults of bus calls

A call fails with an error from the other side, which has a name and may have a text, or because its
reply does not hold what is declared.
-/

namespace ModemLink.Bus

/-- Why a call gave no result. -/
inductive Fault
  /-- The other side answered with an error. -/
  | refused (name : String) (detail : Option String)
  /-- The answer has another signature than the declared one. -/
  | mistyped (signature declared : String)
  /-- The answer has a text that is no interface name in the place of one. -/
  | notAnInterface
deriving DecidableEq, Repr

namespace Fault

/-- The name of the error from the other side. -/
def name? : Fault → Option String
  | refused name _ => some name
  | _ => none

def text : Fault → String
  | refused name detail => name ++ ": " ++ detail.getD "no details"
  | mistyped signature declared =>
    "Signature mismatch: got `" ++ signature ++ "`, expected `" ++ declared ++ "`"
  | notAnInterface =>
    "Invalid interface name. See " ++
      "https://dbus.freedesktop.org/doc/dbus-specification.html#message-protocol-names-interface"

/-- What the names of the bus's own errors begin with. -/
def standardName : String := "org.freedesktop.DBus.Error."

/-- The bus's own errors, by what follows in their names. -/
def standardErrors : List String :=
  ["Failed", "NoMemory", "ServiceUnknown", "NameHasNoOwner", "NoReply", "IOError", "BadAddress",
    "NotSupported", "LimitsExceeded", "AccessDenied", "AuthFailed", "NoServer", "Timeout",
    "NoNetwork", "AddressInUse", "Disconnected", "InvalidArgs", "FileNotFound", "FileExists",
    "UnknownMethod", "UnknownObject", "UnknownInterface", "UnknownProperty", "PropertyReadOnly",
    "TimedOut", "MatchRuleNotFound", "MatchRuleInvalid", "Spawn.ExecFailed", "Spawn.ForkFailed",
    "Spawn.ChildExited", "Spawn.ChildSignaled", "Spawn.Failed", "Spawn.FailedToSetup",
    "Spawn.ConfigInvalid", "Spawn.ServiceNotValid", "Spawn.ServiceNotFound",
    "Spawn.PermissionsInvalid", "Spawn.FileInvalid", "Spawn.NoMemory", "UnixProcessIdUnknown",
    "InvalidSignature", "InvalidFileContent", "SELinuxSecurityContextUnknown",
    "AdtAuditDataUnknown", "ObjectPathInUse", "InconsistentMessage",
    "InteractiveAuthorizationRequired", "NotContainer"]

/-- Whether a name is that of one of the bus's own errors. -/
def isStandard (name : String) : Bool := standardErrors.any fun e => standardName ++ e == name

/-- The fault as the standard interfaces report it: one of the bus's own errors without a text has
the empty text. -/
def standard : Fault → Fault
  | refused name none => refused name (if isStandard name then some "" else none)
  | f => f

end Fault

end ModemLink.Bus
