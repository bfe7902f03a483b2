import ModemLink.Bus.Query
import ModemLink.Text.Beginning

/-!
# Scripted buses

A bus whose objects and replies are written down beforehand. Properties hold values or fail; methods
have lists of replies, which are given in turn, the last one again and again.

* `World.answer`: the reply to a query, and the bus after it.
* `World.managedObjects`: the objects of the modem daemon with the properties that it announces.
-/

namespace ModemLink.Bus

/-- What stands behind a property. -/
inductive Content
  /-- A value; a hidden one can be read but is not announced. -/
  | value (v : Value) (hidden : Bool)
  /-- A failure of every read and write, with its name and text. -/
  | refusal (name : String) (detail : Option String)

/-- The interfaces of an object, each with its properties. -/
abbrev Interfaces := List (String × List (String × Content))

/-- Whether the services are on the bus, their objects, and the replies of methods, which are named
by the path and the full name with the interface. -/
structure World where
  modemManager : Bool
  networkManager : Bool
  objects : List (String × Interfaces)
  methods : List ((String × String) × List Reply)

/-- The list with a value under a key, in place of what was there. -/
def assign {κ α : Type} [BEq κ] (key : κ) (value : α) : List (κ × α) → List (κ × α)
  | [] => [(key, value)]
  | e :: rest => if e.1 == key then (key, value) :: rest else e :: assign key value rest

namespace World

/-! ## Objects -/

def interfaces (w : World) (path : String) : Interfaces := (w.objects.lookup path).getD []

def properties (w : World) (path interface : String) : List (String × Content) :=
  ((w.interfaces path).lookup interface).getD []

def content? (w : World) (path interface name : String) : Option Content :=
  (w.properties path interface).lookup name

/-- The bus with other interfaces of an object. -/
def setInterfaces (w : World) (path : String) (interfaces : Interfaces) : World :=
  { w with objects := assign path interfaces w.objects }

/-- The bus with an interface of an object, which may have no properties yet. -/
def ensure (w : World) (path interface : String) : World :=
  w.setInterfaces path (assign interface (w.properties path interface) (w.interfaces path))

/-- The bus with a property. -/
def set (w : World) (path interface name : String) (c : Content) : World :=
  w.setInterfaces path
    (assign interface (assign name c (w.properties path interface)) (w.interfaces path))

/-- The bus with further interfaces of an object and their properties. -/
def merge (w : World) (path : String) (interfaces : Interfaces) : World :=
  interfaces.foldl (fun w i =>
    i.2.foldl (fun w p => w.set path i.1 p.1 p.2) (w.ensure path i.1)) w

/-- The bus without some interfaces of an object. -/
def erase (w : World) (path : String) (interfaces : List String) : World :=
  w.setInterfaces path ((w.interfaces path).filter fun i => !interfaces.contains i.1)

/-- The properties of an interface that are announced. -/
def announced (properties : List (String × Content)) : List (String × Value) :=
  properties.filterMap fun p =>
    match p.2 with
    | .value v false => some (p.1, v)
    | _ => none

/-- What is announced of interfaces. Of one that is listed again only the last listing counts. -/
def announcedOf (interfaces : Interfaces) : List (String × List (String × Value)) :=
  interfaces.foldl (fun done i => assign i.1 (announced i.2) done) []

/-- The objects of the modem daemon, with what is announced of them. -/
def managedObjects (w : World) : List (String × List (String × List (String × Value))) :=
  (w.objects.filter fun o => Text.beginsWith o.1 (managerPath ++ "/")).map fun o =>
    (o.1, o.2.map fun i => (i.1, announced i.2))

/-! ## Replies -/

/-- Whether a service is on the bus. -/
def serves (w : World) : Service → Bool
  | .modemManager => w.modemManager
  | .networkManager => w.networkManager

/-- Whether somebody on the bus sends the signals that are asked for: the service that they are
expected from, if it is there and the object is one of its own. -/
def sends (w : World) (s : Subscription) : Bool :=
  w.serves s.service && Service.ofPath s.path = s.service

def serviceUnknown (s : Service) : Fault :=
  .refused "org.freedesktop.DBus.Error.ServiceUnknown"
    (some ("the name " ++ s.busName ++ " is not on the bus"))

def unknownProperty (path interface name : String) : Fault :=
  .refused "org.freedesktop.DBus.Error.UnknownProperty"
    (some ("no property " ++ interface ++ "." ++ name ++ " at " ++ path))

def unknownMethod (path interface member : String) : Fault :=
  .refused "org.freedesktop.DBus.Error.UnknownMethod"
    (some ("no method " ++ interface ++ "." ++ member ++ " at " ++ path))

/-- The commands that succeed without a reply of their own. -/
def commands : List String :=
  ["Enable", "Reset", "SetPowerState", "Setup", "SendPin", "SendPuk", "Connect", "Disconnect",
    "ScanDevices"]

/-- The reply to a call that has no reply written down. -/
def defaultReply (w : World) (path interface member : String) : Reply :=
  if interface = Interface.objectManager ∧ member = "GetManagedObjects" then
    .ok [.objects w.managedObjects]
  else if commands.contains member then .ok []
  else .error (unknownMethod path interface member)

/-- The bus with other replies of a method. -/
def script (w : World) (path method : String) (replies : List Reply) : World :=
  { w with methods := assign (path, method) replies w.methods }

/-- The reply to a query for a service that is on the bus, and the bus after it. -/
def reply (w : World) : Query → Reply × World
  | .get _ path interface name =>
    match w.content? path interface name with
    | some (.value v _) => (.ok [v], w)
    | some (.refusal name detail) => (.error (.refused name detail), w)
    | none => (.error (unknownProperty path interface name), w)
  | .set _ path interface name v =>
    match w.content? path interface name with
    | some (.value _ hidden) => (.ok [], w.set path interface name (.value v hidden))
    | some (.refusal name detail) => (.error (.refused name detail), w)
    | none => (.error (unknownProperty path interface name), w)
  | .call _ path interface member _ =>
    match w.methods.lookup (path, interface ++ "." ++ member) with
    | some [only] => (only, w)
    | some (first :: rest) => (first, w.script path (interface ++ "." ++ member) rest)
    | _ => (w.defaultReply path interface member, w)
  | .subscribe s => (.ok [.boolean (w.sends s)], w)

/-- The reply to a query, and the bus after it. Signals can be asked for whether or not the service
is there. -/
def answer (w : World) (q : Query) : Reply × World :=
  match q with
  | .subscribe _ => w.reply q
  | q => if w.serves q.service then w.reply q else (.error (serviceUnknown q.service), w)

end World

end ModemLink.Bus
