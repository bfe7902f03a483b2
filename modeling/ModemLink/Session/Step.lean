import ModemLink.Bus.World
import ModemLink.Handle.Call
import ModemLink.Modem.Filter

/-!
# Steps

What can be done in a session, as data: changes of the scripted bus, uses of the managers, and uses
of the handles, which are kept under names.
-/

namespace ModemLink.Session

/-- One step of a session. Where a step has a `name`, what it gives is kept under that name. -/
inductive Step
  /-- Sets a property without telling anyone. -/
  | set (path interface property : String) (content : Bus.Content)
  /-- Replaces the replies of a method, which is given with its interface. -/
  | script (path method : String) (replies : List Bus.Reply)
  | services (modemManager networkManager : Bool)
  /-- Gives an object further interfaces and announces them. -/
  | added (path : String) (interfaces : Bus.Interfaces)
  /-- Takes interfaces from an object and announces that. -/
  | removed (path : String) (interfaces : List String)
  /-- Sends a signal. -/
  | emit (path interface member : String) (body : List Bus.Value)
  | cloneManager
  | dropManager
  | config
  | version
  | scanDevices
  | modemsAvailable
  | availableModems (sorted : Bool)
  | anyModem (name : Option String)
  | modemAt (index : Nat) (name : Option String)
  | awaitModem (filter : ModemFilter) (name : Option String)
  | resetModem (target : String) (background : Bool) (name : Option String)
  /-- Looks whether a request or a reset in the background has an outcome. -/
  | poll (target : String) (name : Option String)
  | drop (target : String)
  | path (target : String)
  | clone (target : String) (name : Option String)
  /-- A call on a handle. An observer that it registers reports under the tag. -/
  | call (target tag : String) (name : Option String) (call : Call)

/-- What a step gives. -/
inductive Answer
  | nothing
  | result (r : Call.Result)
  | failed (e : Error)
  /-- There is no bus. -/
  | noBus
  | noManager
  | noSuchHandle
  | config (c : Config)
  | flag (b : Bool)
  | count (n : Nat)
  | text (s : String)
  | texts (l : List String)
  /-- A modem, by its path. -/
  | modem (path : Option String)
  | pending
  | started

/-- What a step gives, with what happened during it. -/
structure Entry where
  answer : Answer
  calls : List Bus.Query
  events : List (String × Notification)

end ModemLink.Session
