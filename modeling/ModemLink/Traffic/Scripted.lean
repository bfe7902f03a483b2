import ModemLink.Observer.Slot
import ModemLink.Traffic.Observation

/-!
# Registrations with scripted providers

A list of traffic observers, each with a provider of its own whose replies are written down
beforehand, is registered in one slot, one after the other. Before the next registration the
observer either runs to its end or has not begun to run.

* `register`: one registration with what it makes happen.
* `registerAll`: the results of all of them.
-/

namespace ModemLink.Traffic.Scripted

open Observer

/-- What a provider is asked. -/
inductive Question
  | rate (interface : String) (interval : UInt32)
  | refreshes (interface : String)
  | read (interface : String)
deriving DecidableEq, Repr

/-- What a provider answers: counters, for questions that ask for them. -/
abbrev Reply := Except Error TrafficStats

/-- A provider with its replies, and how it is observed. -/
structure Script where
  interface : String
  interval : UInt32
  /-- The replies to the readings in turn; `none` is a reading that fails, as do all further ones.
  -/
  replies : List (Option TrafficStats)
  /-- How many refreshes there are. -/
  refreshes : Nat
  failRate : Bool
  failRefreshes : Bool
  /-- Whether the observer runs to its end before the next registration. -/
  settles : Bool

/-- The provider that asks the script. -/
def provider : Provider Question Reply Unit where
  read interface := do
    Program.ofExcept (← Program.asking (.read interface))
  setRefreshRate interface interval := do
    let _ ← Program.ofExcept (← Program.asking (.rate interface interval))
  refreshes interface := do
    let _ ← Program.ofExcept (← Program.asking (.refreshes interface))

/-- Answers a question by a script, and gives the script that is left. -/
def answer (s : Script) : Question → Reply × Script
  | .rate _ _ => (if s.failRate then .error .timeout else .ok ⟨0, 0⟩, s)
  | .refreshes _ =>
    (if s.failRefreshes then .error (.keyNotFound "refreshes") else .ok ⟨0, 0⟩, s)
  | .read interface =>
    match s.replies with
    | some stats :: rest => (.ok stats, { s with replies := rest })
    | none :: rest => (.error (.keyNotFound interface), { s with replies := rest })
    | [] => (.error (.keyNotFound interface), s)

/-- An entry of the log: a question to a provider, or counters delivered to an observer, which is
named by its place in the list of registrations. -/
inductive Entry
  | asked (q : Question)
  | delivered (observer : Nat) (stats : TrafficStats)
deriving Repr

/-- An observer with its place in the list and its script. -/
structure Observed where
  place : Nat
  work : Work Question Reply Unit TrafficStats
  script : Script

/-- All that an observer does when it runs to its end. -/
def Observed.log (o : Observed) : List Entry :=
  (o.work.run answer true o.script).1.map fun
    | .asked q => .asked q
    | .delivered stats => .delivered o.place stats

/-- Registers the observer at a place of the list: the slot, the result and the log. -/
def register (slot : Slot Observed) (place : Nat) (s : Script) :
    Slot Observed × Except Error Unit × List Entry :=
  let outcome := (prepare provider s.interface s.interval).run answer true s
  let slot :=
    match outcome.result with
    | .ok () =>
      slot.register
        { place
          work := ⟨onRefresh provider s.interface, List.replicate s.refreshes (), [], true⟩
          script := outcome.state }
    | .error _ => slot
  let asked := outcome.trace.map fun t => Entry.asked t.1
  if s.settles then
    match slot.running? with
    | some o => (slot.finish, outcome.result, asked ++ o.log)
    | none => (slot, outcome.result, asked)
  else (slot, outcome.result, asked)

/-- Registers observers in turn, from a place of the list on. -/
def registerFrom (slot : Slot Observed) (place : Nat) :
    List Script → List (Except Error Unit × List Entry)
  | [] => []
  | s :: rest =>
    let (slot, result) := register slot place s
    result :: registerFrom slot (place + 1) rest

/-- The result and the log of each registration. -/
def registerAll (scripts : List Script) : List (Except Error Unit × List Entry) :=
  registerFrom .empty 0 scripts

end ModemLink.Traffic.Scripted
