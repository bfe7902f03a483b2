import ModemLink.Session.Client
import ModemLink.Session.Step

/-!
# Sessions

A program uses a manager and handles on a scripted bus, step by step. After every step all that goes
on by itself runs until it can only wait.

* `Session.step`: one step.
* `Session.run`: a whole session, from the start of the first manager on.
-/

namespace ModemLink

/-- What a name stands for. -/
inductive Held
  | modem (m : Tracked Nat)
  | sim (path : String)
  | bearer (b : Tracked Nat)
  /-- A request for a modem. -/
  | request (id : Registry.RequestId)
  /-- A reset that runs in the background. -/
  | reset (id : Nat)

/-- A client on a scripted bus, with what it keeps under names. -/
structure Session where
  client : Client
  scene : Scene
  held : List (String × Held)

namespace Session

open Bus (Value)

/-! ## Names -/

def held? (s : Session) (name : String) : Option Held := s.held.lookup name

def modem? (s : Session) (name : String) : Option (Tracked Nat) :=
  match s.held? name with
  | some (.modem m) => some m
  | _ => none

/-- Gives up what stood under a name: nobody waits for the request any more. A reset goes on, and
only its result is lost. -/
def release (s : Session) : Held → Session
  | .request id => { s with client := { s.client with modems := s.client.modems.abandon id } }
  | _ => s

/-- Makes a name stand for nothing. -/
def forget (s : Session) (name : String) : Session :=
  match s.held? name with
  | none => s
  | some h => ({ s with held := s.held.filter fun e => e.1 != name } : Session).release h

/-- Keeps something under a name, if there is one, in place of what the name stood for. -/
def keep (s : Session) (name : Option String) (h : Held) : Session :=
  match name with
  | none => s.release h
  | some name =>
    let s := s.forget name
    { s with held := (name, h) :: s.held }

/-- Keeps a modem under a name, if there are both. -/
def keepModem (s : Session) (name : Option String) (m : Option (Tracked Nat)) : Session :=
  match m with
  | some m => s.keep name (.modem m)
  | none => s

/-- A handle to a bearer, which has observers of its own. -/
def keepBearer (s : Session) (name : Option String) (path : String) : Session :=
  let s := s.keep name (.bearer ⟨path, s.client.fresh⟩)
  { s with client := { s.client with fresh := s.client.fresh + 1 } }

/-- Keeps bearers under a name with their places in the list after it. -/
def keepBearers (s : Session) (name : Option String) (place : Nat) : List String → Session
  | [] => s
  | path :: rest =>
    (s.keepBearer (name.map (· ++ toString place)) path).keepBearers name (place + 1) rest

/-- The numbers of all handles that are in use. -/
def owners (s : Session) : List Nat :=
  s.client.owners ++ s.held.filterMap fun e =>
    match e.2 with
    | .modem m => some m.handle
    | .bearer b => some b.handle
    | .reset id => (s.client.returned? id).map Tracked.handle
    | _ => none

/-! ## The bus -/

/-- The session with another bus. -/
def changeWorld (s : Session) (f : Bus.World → Bus.World) : Session :=
  { s with scene := s.scene.change f }

/-- The session after a signal has been sent, which reaches only a client that is linked. -/
def send (s : Session) (path interface member : String) (body : List Value) : Session :=
  let c := s.client
  let arguments := Value.arguments body
  if c.isLinked then
    let tracker :=
      if path = Bus.managerPath ∧ interface = Bus.Interface.objectManager then
        ((Manager.change? member arguments).map c.tracker.notify).getD c.tracker
      else c.tracker
    let board := c.board.deliver path interface member arguments
    { s with client := { c with tracker, board } }
  else s

/-- The session after a signal of the modem daemon about one of its objects. -/
def announce (s : Session) (member path : String) (content : Value) : Session :=
  s.send Bus.managerPath Bus.Interface.objectManager member [.path path, content]

/-- Runs a request to its end, while nothing else goes on. -/
def request {α : Type} (s : Session) (p : Request α) : Session × Except Error α :=
  let outcome := p.run Scene.ask s.client.isLinked s.scene
  ({ s with scene := outcome.state }, outcome.result)

/-! ## Resets -/

/-- Lets everything go on that goes on by itself, then gives up the observers that nobody owns. -/
def settle (s : Session) : Session :=
  let (client, scene) := s.client.settle s.scene
  let client := if client.isHasty then client.expire fun _ => true else client
  let s := { s with client, scene }
  let owners := s.owners
  { s with client := { s.client with board := s.client.board.keep owners.contains } }

/-- Resets a modem and waits for its return. -/
def resetNow (s : Session) (m : Tracked Nat) : Session × Except Error (Tracked Nat) :=
  let (client, id) := s.client.beginReset m
  let (client, scene) := client.settle s.scene
  let client := client.expire (· == id)
  ({ s with client := client.endReset id, scene },
    (client.resetResult? id).getD (.error .timeout))

/-! ## Calls -/

/-- What a call on a handle does, and the number of the handle's observers, if the handle takes the
call. -/
def callOn? (s : Session) (h : Held) (call : Call) : Option (Request Call.Result × Nat) :=
  match h with
  | .modem m => (call.onModem? s.client.config m.path).map fun p => (p, m.handle)
  | .sim path => (call.onSim? path).map fun p => (p, 0)
  | .bearer b => (call.onBearer? b.path).map fun p => (p, b.handle)
  | _ => none

/-- Keeps the handles and registers the observer that a call gives. -/
def receive (s : Session) (owner : Nat) (tag : String) (name : Option String) :
    Call.Result → Session × Answer
  | .sim (some path) => (s.keep name (.sim path), .result (.sim (some path)))
  | .bearer (some path) => (s.keepBearer name path, .result (.bearer (some path)))
  | .bearers paths => (s.keepBearers name 0 paths, .result (.bearers paths))
  | .watch kind w =>
    let board := s.client.board.register ⟨owner, kind⟩ (.ofWatch tag w)
    ({ s with client := { s.client with board } }, .nothing)
  | r => (s, .result r)

/-- Makes a call on what a name stands for. -/
def call (s : Session) (target tag : String) (name : Option String) (call : Call) :
    Session × Answer :=
  match (s.held? target).bind fun h => s.callOn? h call with
  | none => (s, .noSuchHandle)
  | some (p, owner) =>
    match s.request p with
    | (s, .ok r) => s.receive owner tag name r
    | (s, .error e) => (s, .failed e)

/-! ## Steps -/

/-- The answer for a modem that may not be there; it is kept under a name. -/
def giveModem (s : Session) (name : Option String) (m : Option (Tracked Nat)) : Session × Answer :=
  (s.keepModem name m, .modem (m.map Tracked.path))

/-- The answer for the outcome of a wait for a modem. -/
def giveOutcome (s : Session) (name : Option String) :
    Except Error (Tracked Nat) → Session × Answer
  | .ok m => s.giveModem name (some m)
  | .error e => (s, .failed e)

/-- The answer for the result of a request. -/
def give {α : Type} (f : α → Answer) : Session × Except Error α → Session × Answer
  | (s, .ok a) => (s, f a)
  | (s, .error e) => (s, .failed e)

/-- Looks for the outcome of what a name stands for, and takes it if there is one. -/
def poll (s : Session) (target : String) (name : Option String) : Session × Answer :=
  let outcome :=
    match s.held? target with
    | some (.request id) => some (s.client.modems.outcome? id)
    | some (.reset id) => some (s.client.resetResult? id)
    | _ => none
  match outcome with
  | none => (s, .noSuchHandle)
  | some none => (s, .pending)
  | some (some r) => (s.forget target).giveOutcome name r

/-- Resets a modem for a manager. -/
def resetModem (s : Session) (target : String) (background : Bool) (name : Option String) :
    Session × Answer :=
  match s.modem? target with
  | none => (s, .noSuchHandle)
  | some m =>
    if background then
      let (client, id) := s.client.beginReset m
      (({ s with client } : Session).keep name (.reset id), .started)
    else
      let (s, r) := s.resetNow m
      s.giveOutcome name r

/-- A step that uses a manager. -/
def useManager (s : Session) : Step → Session × Answer
  | .config => (s, .config s.client.config)
  | .version => give .text (s.request Manager.version)
  | .scanDevices => give (fun _ => .nothing) (s.request Manager.scanDevices)
  | .modemsAvailable => (s, .flag s.client.modems.first?.isSome)
  | .availableModems sorted =>
    let paths := s.client.modems.list.map Tracked.path
    (s, .texts (if sorted then paths.mergeSort fun a b => decide (a ≤ b) else paths))
  | .anyModem name => s.giveModem name s.client.modems.first?
  | .modemAt index name => s.giveModem name s.client.modems.list[index]?
  | .awaitModem filter name =>
    let (modems, id) := s.client.modems.await filter
    (({ s with client := { s.client with modems } } : Session).keep name (.request id), .nothing)
  | .resetModem target background name => s.resetModem target background name
  | _ => (s, .nothing)

/-- The effect and the answer of a step, before all goes on that goes on by itself. -/
def act (s : Session) : Step → Session × Answer
  | .set path interface property content =>
    (s.changeWorld (·.set path interface property content), .nothing)
  | .script path method replies => (s.changeWorld (·.script path method replies), .nothing)
  | .services modemManager networkManager =>
    (s.changeWorld fun w => { w with modemManager, networkManager }, .nothing)
  | .added path interfaces =>
    let s := s.changeWorld (·.merge path interfaces)
    let announced := Bus.World.announcedOf interfaces
    (s.announce Manager.announcements.member path (.interfaces announced), .nothing)
  | .removed path interfaces =>
    let s := s.changeWorld (·.erase path interfaces)
    (s.announce Manager.removals.member path (.strings interfaces), .nothing)
  | .emit path interface member body => (s.send path interface member body, .nothing)
  | .cloneManager =>
    if s.client.managers = 0 then (s, .noManager)
    else
      let managers := s.client.managers + 1
      ({ s with client := { s.client with managers } }, .count managers)
  | .dropManager =>
    let managers := s.client.managers - 1
    ({ s with client := { s.client with managers } }, .count managers)
  | .poll target name => s.poll target name
  | .drop target => (s.forget target, .flag (s.held? target).isSome)
  | .path target =>
    match s.held? target with
    | some (.modem m) => (s, .text m.path)
    | some (.sim path) => (s, .text path)
    | some (.bearer b) => (s, .text b.path)
    | _ => (s, .noSuchHandle)
  | .clone target name =>
    match s.modem? target with
    | some m => (s.keep name (.modem m), .nothing)
    | none => (s, .noSuchHandle)
  | .call target tag name call => s.call target tag name call
  | step => if s.client.managers = 0 then (s, .noManager) else s.useManager step

/-- One step, with all that happens until everything can only wait. -/
def step (s : Session) (step : Step) : Session × Entry :=
  let (s, answer) := ({ s with scene := s.scene.fresh } : Session).act step
  let s := s.settle
  (s, ⟨answer, s.scene.calls, s.scene.events⟩)

/-- Steps in turn. -/
def runSteps (s : Session) : List Step → List Entry
  | [] => []
  | first :: rest =>
    let (s, entry) := s.step first
    entry :: s.runSteps rest

/-- Starts a manager on a bus and takes the steps, of which there are none if it cannot start. -/
def run (config : Config) (world : Option Bus.World) (steps : List Step) : List Entry :=
  match world with
  | none => [⟨.noBus, [], []⟩]
  | some world =>
    let outcome := (Manager.connect (.ok ())).run Scene.ask true ⟨world, [], []⟩
    let scene := outcome.state
    match outcome.result with
    | .error e => [⟨.failed e, scene.calls, scene.events⟩]
    | .ok modems =>
      ⟨.nothing, scene.calls, scene.events⟩ ::
        runSteps ⟨.ofModems config modems, scene, []⟩ steps

end Session

end ModemLink
