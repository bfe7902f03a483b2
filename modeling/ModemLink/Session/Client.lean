import ModemLink.Handle.Board
import ModemLink.Manager.Reset
import ModemLink.Manager.Start
import ModemLink.Session.Scene

/-!
# Clients

All that a program has of the modem daemon: its managers, the registry with its tracker, the
observers, and resets that run by themselves. The tracker, the observers and the resets take turns:
in a round each goes on as far as it can without asking and then asks at most one question. An
observer that comes to rest has its next turn after those that rested before it.

The client is linked to the bus while it has a manager; a reset that runs has one of its own. When
the last manager is gone the tracker and the observers stop and the pending request is cancelled.

* `Client.round`: one round.
* `Client.settle`: rounds until nobody has anything left to do.
-/

namespace ModemLink

/-- A reset that runs by itself, on the modem with the given handle. -/
structure RunningReset where
  modem : Tracked Nat
  stage : Reset

/-- What a program has of the modem daemon. -/
structure Client where
  config : Config
  /-- How many managers the program has. -/
  managers : Nat
  modems : Modems
  tracker : Tracker
  board : Board
  /-- The resets, by their numbers. -/
  resets : List (Nat × RunningReset)
  /-- A number above all that are in use. -/
  fresh : Nat

namespace Client

/-- A client with one manager, which has found the given modems with their identities. -/
def ofModems (config : Config) (modems : List (String × String)) : Client :=
  { config, managers := 1, modems := Manager.modems 0 modems .empty, tracker := .idle, board := []
    resets := [], fresh := modems.length }

/-- Whether there still is a manager. -/
def isLinked (c : Client) : Bool := c.managers != 0 || c.resets.any fun r => !r.2.stage.hasEnded

/-- The client with everything at an end that ends with the last manager, if there is none. -/
def unlink (c : Client) : Client :=
  if c.isLinked then c
  else { c with modems := c.modems.close, tracker := .idle, board := c.board.finish }

/-! ## Turns -/

/-- The turn of the tracker. -/
def turnTracker (c : Client) (s : Scene) : Client × Scene :=
  let (tracker, modems) := c.tracker.step c.isLinked c.fresh c.modems
  let c := { c with tracker, modems, fresh := c.fresh + 1 }
  match tracker.question? with
  | none => (c, s)
  | some q =>
    let (reply, s) := s.ask q
    ({ c with tracker := tracker.reply reply }, s)

/-- The turn of the observer in a slot. -/
def turnSlot (linked : Bool) (slot : Observer.Slot Watcher) (s : Scene) :
    Observer.Slot Watcher × Scene :=
  let (slot, told) := slot.poll (Watcher.poll linked) Watcher.isDone
  let s := s.tell told
  match slot.running?.bind fun w => w.work.question? with
  | none => (slot, s)
  | some q =>
    let (reply, s) := s.ask q
    (slot.update (Watcher.reply reply), s)

/-- The turns of the observers: those that rest now but did not before, apart from all others. -/
def turnBoard (linked : Bool) : Board → Scene → Board × Board × Scene
  | [], s => ([], [], s)
  | (key, slot) :: rest, s =>
    let (turned, s) := turnSlot linked slot s
    let (others, rested, s) := turnBoard linked rest s
    if Board.isAtRest turned && !Board.isAtRest slot then (others, (key, turned) :: rested, s)
    else ((key, turned) :: others, rested, s)

/-- The turn of a reset. -/
def turnReset (linked : Bool) (r : RunningReset) (modems : Modems) (s : Scene) :
    RunningReset × Modems × Scene :=
  let (modems, stage) := r.stage.step r.modem.path linked modems
  match stage.question? with
  | none => ({ r with stage }, modems, s)
  | some q =>
    let (reply, s) := s.ask q
    ({ r with stage := stage.reply reply }, modems, s)

/-- The turns of the resets. -/
def turnResets (linked : Bool) :
    List (Nat × RunningReset) → Modems → Scene → List (Nat × RunningReset) × Modems × Scene
  | [], modems, s => ([], modems, s)
  | (id, r) :: rest, modems, s =>
    let (r, modems, s) := turnReset linked r modems s
    let (rest, modems, s) := turnResets linked rest modems s
    ((id, r) :: rest, modems, s)

/-- A round of turns: the tracker, the observers, the resets. -/
def round (c : Client) (s : Scene) : Client × Scene :=
  let linked := c.isLinked
  let (c, s) := c.turnTracker s
  let (others, rested, s) := turnBoard linked c.board s
  let (resets, modems, s) := turnResets linked c.resets c.modems s
  (({ c with board := others ++ rested, resets, modems } : Client).unlink, s)

/-- Whether nobody has anything left to do. -/
def isIdle (c : Client) : Bool :=
  c.tracker.isIdle && c.board.isIdle && c.resets.all fun r => r.2.stage.isBlocked c.modems

/-- How many rounds there are before a client counts as settled. At most one signal is sent at a
time, and whoever reacts to it asks no more than three questions. -/
def roundLimit : Nat := 64

/-- At most so many rounds, until nobody has anything left to do. -/
def rounds : Nat → Client → Scene → Client × Scene
  | 0, c, s => (c, s)
  | limit + 1, c, s =>
    if c.isIdle then (c, s)
    else
      let (c, s) := c.round s
      rounds limit c s

/-- Rounds until nobody has anything left to do. -/
def settle (c : Client) (s : Scene) : Client × Scene := rounds roundLimit c.unlink s

/-! ## Time -/

/-- Ends the resets with the given numbers that still wait, because their time is over. -/
def expire (ended : Nat → Bool) (c : Client) : Client :=
  let (modems, resets) := c.resets.foldl
    (fun (modems, done) (id, r) =>
      if ended id then
        let (modems, stage) := r.stage.expire .outcome modems
        (modems, done ++ [(id, { r with stage })])
      else (modems, done ++ [(id, r)]))
    (c.modems, [])
  ({ c with modems, resets } : Client).unlink

/-- How many milliseconds there are between two steps. -/
def pause : Nat := 5

/-- Whether a reset in the background runs out of time between two steps. -/
def isHasty (c : Client) : Bool :=
  match c.config.resetTimeout with
  | some limit => limit ≤ pause
  | none => false

/-! ## Resets -/

/-- The client with one more reset, and the number of the reset. -/
def beginReset (c : Client) (modem : Tracked Nat) : Client × Nat :=
  ({ c with
      resets := c.resets ++ [(c.fresh, ⟨modem, .begin c.modems modem.path⟩)]
      fresh := c.fresh + 1 }, c.fresh)

/-- The client without a reset. -/
def endReset (c : Client) (id : Nat) : Client :=
  { c with
    modems := (c.resets.lookup id).elim c.modems fun r => r.stage.giveUp c.modems
    resets := c.resets.filter fun r => r.1 != id }

/-- The result of a reset that is over. -/
def resetResult? (c : Client) (id : Nat) : Option (Except Error (Tracked Nat)) :=
  match c.resets.lookup id with
  | some ⟨_, .ended result⟩ => some result
  | _ => none

/-- The modem that has come back from a reset. -/
def returned? (c : Client) (id : Nat) : Option (Tracked Nat) :=
  (c.resetResult? id).bind Except.toOption

/-! ## Owners -/

/-- The numbers of the handles that the client itself keeps: of the known modems, of modems that
resolved requests, and of modems that are reset. -/
def owners (c : Client) : List Nat :=
  c.modems.list.map Tracked.handle ++
    c.modems.futures.filterMap (fun
      | .resolved object => some object.handle
      | _ => none) ++
    (c.resets.filter fun r => !r.2.stage.hasEnded).map fun r => r.2.modem.handle

end Client

end ModemLink
