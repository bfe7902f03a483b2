import ModemLink.Remote.Modem

/-!
# Watches

What an observer of a modem or a bearer watches: the signals it asks for, and the readings that each
of them gives rise to. The programs here prepare a watch; only when such a program has succeeded is
there an observer to register.

* `changedNames?`: the names of the properties that a signal says have changed.
* `Modem.watchState`, `Modem.watchSignal`, `Modem.watchLocation`, `Bearer.watchTraffic`: the four
  kinds of watch.
-/

namespace ModemLink

open Bus (Interface.modem Interface.signal Interface.location Interface.statistics
  Interface.properties Value Subscription)

/-- What an observer is told. -/
inductive Notification
  | state (old new : State)
  | signal (s : Signal)
  | location (l : Option Location)
  | traffic (s : TrafficStats)

/-- The signals to watch for, if there is anyone who sends them, and the readings that the arguments
of one of them give rise to. -/
structure Watch where
  subscription : Option Subscription
  react : List Value → List (Request Notification)

namespace Watch

/-- The names without those that occur before. -/
def distinct (seen : List String) : List String → List String
  | [] => []
  | name :: rest => if name ∈ seen then distinct seen rest else name :: distinct (name :: seen) rest

/-- The names of changed properties of an interface, in the arguments of a signal about changed
properties: those whose new values the signal carries, then those that it only names. Nothing if the
arguments are malformed or about another interface. -/
def changedNames? (interface : String) : List Value → Option (List String)
  | [.string changed, .dictionary values, .strings invalidated] =>
    if changed = interface then
      let names := values.map Prod.fst
      some (names ++ distinct names invalidated)
    else none
  | _ => none

/-- The watch for changed properties of an interface, with a reaction to their names. -/
def ofChanges (subscription : Option Subscription) (interface : String)
    (react : List String → List (Request Notification)) : Watch :=
  ⟨subscription, fun body => ((changedNames? interface body).map react).getD []⟩

end Watch

namespace Modem

/-! ## State -/

/-- The change in the arguments of a signal about the state. -/
def onStateChange : List Value → List (Request Notification)
  | [.int32 old, .int32 new, .uint32 _] => [return .state (.ofCode old) (.ofCode new)]
  | _ => []

/-- Prepares to watch the state. -/
def watchState (path : String) : Request Watch := do
  Program.connection
  let s ← Request.subscribe ⟨.modemManager, path, Interface.modem, "StateChanged"⟩
  return ⟨s, onStateChange⟩

/-! ## Signal quality -/

/-- The generations whose signal values are among changed properties. -/
def reported (names : List String) : List Generation :=
  [Generation.lte, .nr5g].filter fun g => names.contains (reportName g)

/-- The signal values of each generation that has changed. -/
def onSignalChange (path : String) (names : List String) : List (Request Notification) :=
  (reported names).map fun g => do return .signal (← readSignal path g)

/-- Prepares to watch the signal quality, reported every so many milliseconds. -/
def watchSignal (path : String) (interval : Nat) : Request Watch := do
  require path (.atLeast .registered) "observe signal quality"
  Program.connection
  setupSignal path interval
  Program.connection
  let s ← Request.subscribe (.changes .modemManager path)
  return .ofChanges s Interface.signal (onSignalChange path)

/-! ## Location -/

/-- Reads the location again. A location that is not told in a text is no location. -/
def rereadLocation (path : String) : Request (Option Location) := do
  match areaText? (← readSources path) with
  | none => .fail (.keyNotFound "Location")
  | some text =>
    let access ←
      Request.property .modemManager path Interface.modem "AccessTechnologies" .uint32
    Program.ofExcept (Location.ofReport text (.ofAccess access))

/-- The location, if it has changed. -/
def onLocationChange (path : String) (names : List String) : List (Request Notification) :=
  if names.contains "Location" then [do return .location (← rereadLocation path)] else []

/-- Prepares to watch the location of the serving cell. -/
def watchLocation (path : String) : Request Watch := do
  require path (.atLeast .registered) "observe cell location"
  Program.connection
  Request.command .modemManager path Interface.location "Setup" [.uint32 areaSource, .boolean true]
    .nothing (.operation "failed to enable 3GPP location source")
  Program.connection
  let s ← Request.subscribe (.changes .modemManager path)
  return .ofChanges s Interface.location (onLocationChange path)

end Modem

namespace Bearer

/-- The counters of a network interface, if they have been refreshed. -/
def onCounterChange (interface : String) (names : List String) : List (Request Notification) :=
  if names.contains "RxBytes" || names.contains "TxBytes" then
    (Traffic.onRefresh Network.provider interface ()).map fun reading => do
      return .traffic (← reading)
  else []

/-- Prepares to watch the traffic of the bearer's network interface, counted every so many
milliseconds. -/
def watchTraffic (path : String) (interval : UInt32) : Request Watch := do
  let interface ← interface path
  Program.connection
  let s ← Traffic.prepare Network.provider interface interval
  return .ofChanges s Interface.statistics (onCounterChange interface)

end Bearer

end ModemLink
