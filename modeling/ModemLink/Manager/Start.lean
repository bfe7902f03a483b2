import ModemLink.Manager.Tracker

/-!
# Starting a manager

A manager first asks for the announcements and removals to come and only then for the objects that
there are, so that no modem is missed. The modems among these objects are announced one after the
other; a modem that does not tell its identity is announced without one.

* `Manager.start`: the announced modems with their identities. Whatever fails, the manager cannot be
  started.
* `Manager.connect`: the same on a bus that may be out of reach.
* `Manager.modems`: the registry with these modems.
* `Manager.version`, `Manager.scanDevices`: what a manager asks the daemon itself.
-/

namespace ModemLink.Manager

open Bus (Value Subscription)

/-- The signals of the daemon about its objects. -/
def changesNamed (member : String) : Subscription :=
  ⟨.modemManager, Bus.managerPath, Bus.Interface.objectManager, member⟩

def announcements : Subscription := changesNamed "InterfacesAdded"

def removals : Subscription := changesNamed "InterfacesRemoved"

/-- The change that the arguments of a signal of the daemon tell. -/
def change? (member : String) (arguments : List Value) : Option ObjectChange :=
  if member = announcements.member then (Announcement.ofArguments? arguments).map .added
  else if member = removals.member then (Removal.ofArguments? arguments).map .removed
  else none

/-- The announcements of objects, if the names of all their interfaces are interface names. -/
def announcementsOf (objects : List (String × List (String × List (String × Value)))) :
    Except Error (List Announcement) :=
  if objects.all fun o => o.2.all fun i => Bus.isInterfaceName i.1 then
    .ok (objects.map fun o => .ofBus o.1 o.2)
  else .error (.bus .notAnInterface)

/-- Asks for the signals about objects and then for the objects. -/
def enumerate : Request (List Announcement) := do
  Program.connection
  let _ ← Request.subscribe announcements
  let _ ← Request.subscribe removals
  let objects ←
    Request.command .modemManager Bus.managerPath Bus.Interface.objectManager "GetManagedObjects" []
      (.single .objects) fun f => .bus f.standard
  Program.ofExcept (announcementsOf objects)

/-- The paths of the modems among announced objects, with their identities. -/
def identifyAll : List Announcement → Request (List (String × String))
  | [] => return []
  | a :: rest => do
    if a.isModem then
      let identity ← a.identify
      return (a.path, identity) :: (← identifyAll rest)
    else identifyAll rest

/-- That the daemon cannot be reached, for the error that shows it. -/
def unreachable : Error → Error
  | .connectionFailed reason => .connectionFailed reason
  | e => .connectionFailed (e.message ++ "; is ModemManager running?")

/-- The modems that there are, with their identities. -/
def start : Request (List (String × String)) := do
  match ← enumerate.attempt with
  | .ok objects => identifyAll objects
  | .error e => .fail (unreachable e)

/-- The modems that there are on a bus, unless it cannot be reached for the given reason. -/
def connect (bus : Except String Unit) : Request (List (String × String)) := do
  Program.ofExcept (bus.mapError .connectionFailed)
  start

@[simp] theorem connect_ok : connect (.ok ()) = start := rfl

/-- The registry with modems that are announced with their identities, numbered from `fresh` on. -/
def modems (fresh : Nat) : List (String × String) → Modems → Modems
  | [], r => r
  | (path, identity) :: rest, r => modems (fresh + 1) rest (r.add ⟨path, fresh⟩ identity).1

/-- The version of the daemon. -/
def version : Request String :=
  Request.property .modemManager Bus.managerPath Bus.Interface.manager "Version" .string

/-- Makes the daemon look for new devices. -/
def scanDevices : Request Unit :=
  Request.command .modemManager Bus.managerPath Bus.Interface.manager "ScanDevices" []
    .nothing .bus

end ModemLink.Manager
