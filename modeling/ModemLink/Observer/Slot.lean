import ModemLink.Observer.Shutdown
import ModemLink.Observer.Work

/-!
# Observer slots

A slot holds the observer that was registered in it last. Registering another one aborts it, and so
does giving up the slot. An aborted task is never polled again; a finished one has nothing left to
do.

An observer runs beside a watch on the shutdown channel of its manager. Each poll looks at both, in
either order: if the work comes first it may still go on for that one poll.

* `Task.poll`: one poll of a task, with the order in which it looks at its work and at the shutdown.
* `Slot.register`, `Slot.abandon`: the ways in which a slot changes its observer.
* `Slot.pollAt`: one poll of any of the tasks that were ever registered.
-/

namespace ModemLink.Observer

/-- How far a task has come. -/
inductive Status
  | running
  | aborted
  | finished
deriving DecidableEq, Repr

/-- A task with its work. -/
structure Task (W : Type) where
  work : W
  status : Status
  /-- How many values on the shutdown channel the task has seen. -/
  seen : Nat

namespace Task

variable {W β : Type}

/-- A task that has not been polled yet. -/
def start (work : W) : Task W := ⟨work, .running, 0⟩

/-- The task, aborted if it was running. -/
def abort (t : Task W) : Task W :=
  if t.status = .running then { t with status := .aborted } else t

/-- The task, finished if it was running. -/
def finish (t : Task W) : Task W :=
  if t.status = .running then { t with status := .finished } else t

/-- The task after something has reached its work, which is gone unless the task is running. -/
def feed (f : W → W) (t : Task W) : Task W :=
  if t.status = .running then { t with work := f t.work } else t

/-- What a poll looks at first. -/
inductive First
  | work
  | shutdown
deriving DecidableEq, Repr

/-- The task after its work has gone on by `f`, and what that gave. A task whose work is done is
finished. -/
def progress (f : W → W × List β) (isDone : W → Bool) (t : Task W) : Task W × List β :=
  if t.status = .running then
    let (work, out) := f t.work
    ({ t with work, status := if isDone work then .finished else .running }, out)
  else (t, [])

/-- The task after it has watched the shutdown channel. It is finished if the channel is closed. -/
def heed (channel : Shutdown) (t : Task W) : Task W :=
  if t.status = .running then
    let (seen, isClosed) := channel.watch t.seen
    { t with seen, status := if isClosed then .finished else .running }
  else t

/-- One poll of a task. What comes second is left out if the task has finished by what comes
first. -/
def poll (f : W → W × List β) (isDone : W → Bool) (channel : Shutdown) (first : First)
    (t : Task W) : Task W × List β :=
  match first with
  | .work =>
    let (t, out) := t.progress f isDone
    (t.heed channel, out)
  | .shutdown => (t.heed channel).progress f isDone

end Task

/-- A slot with all the tasks that were ever registered in it, the last of which it holds. -/
structure Slot (W : Type) where
  tasks : List (Task W)

namespace Slot

variable {W β : Type}

/-- A slot in which nothing was registered. -/
def empty : Slot W := ⟨[]⟩

/-- The slot with the task at a place changed. -/
def changeAt (f : Task W → Task W) (place : Nat) (s : Slot W) : Slot W :=
  ⟨s.tasks.modify place f⟩

/-- The place of the task that the slot holds, if it holds one. -/
def last (s : Slot W) : Nat := s.tasks.length - 1

/-- The slot after its observer is aborted because nobody owns the slot any more. -/
def abandon (s : Slot W) : Slot W := s.changeAt Task.abort s.last

/-- The slot with a new observer, whose predecessor is aborted. -/
def register (s : Slot W) (work : W) : Slot W := ⟨s.abandon.tasks ++ [.start work]⟩

/-- The work of the observer that the slot holds, if it is running. -/
def running? (s : Slot W) : Option W :=
  match s.tasks[s.last]? with
  | some t => if t.status = .running then some t.work else none
  | none => none

/-- The slot after the task at a place has been polled, and what that gave. -/
def pollAt (f : W → W × List β) (isDone : W → Bool) (channel : Shutdown) (first : Task.First)
    (place : Nat) (s : Slot W) : Slot W × List β :=
  match s.tasks[place]? with
  | none => (s, [])
  | some t =>
    let (t, out) := t.poll f isDone channel first
    (⟨s.tasks.set place t⟩, out)

/-- The slot after the observer that it holds has been polled while there is a manager, which sends
nothing. -/
def poll (f : W → W × List β) (isDone : W → Bool) (s : Slot W) : Slot W × List β :=
  s.pollAt f isDone .silent .work s.last

/-- The slot with the work of the observer that it holds changed, if it is running. -/
def update (f : W → W) (s : Slot W) : Slot W :=
  s.changeAt (Task.feed f) s.last

/-- The slot whose observer has nothing left to do. -/
def finish (s : Slot W) : Slot W := s.changeAt Task.finish s.last

end Slot

end ModemLink.Observer
