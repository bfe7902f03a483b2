import ModemLink.Handle.Call
import ModemLink.Observer.Slot

/-!
# The board of observers

The observers of all handles. Handles that share observers have one number between them; the board
has a slot for each number and kind of observer in which something was registered. The slots stand
in the order in which their observers take turns: a new observer comes last.

* `Board.register`: registers an observer in a slot, in place of the one before it.
* `Board.deliver`: hands a signal to the observers that asked for it.
* `Board.keep`: abandons the slots that nobody owns any more.
-/

namespace ModemLink

open Bus (Value Subscription)

/-- An observer with the tag under which it reports. -/
structure Watcher where
  tag : String
  subscription : Option Subscription
  work : Observer.Work Bus.Query Bus.Reply (List Value) Notification

namespace Watcher

/-- The observer that a watch describes. -/
def ofWatch (tag : String) (w : Watch) : Watcher := ⟨tag, w.subscription, .ofReact w.react⟩

/-- Goes on as far as possible without asking, and gives what it reports. -/
def poll (linked : Bool) (w : Watcher) : Watcher × List (String × Notification) :=
  let (work, told) := w.work.poll linked
  ({ w with work }, told.map fun n => (w.tag, n))

/-- The observer with the reply that it waits for. -/
def reply (r : Bus.Reply) (w : Watcher) : Watcher := { w with work := w.work.reply r }

/-- Whether the observer has asked for the signals of a name that an object sends. -/
def hears (path interface member : String) (w : Watcher) : Bool :=
  w.subscription.any fun s => s.path = path ∧ s.interface = interface ∧ s.member = member

/-- The observer after a signal with the given arguments has been sent. -/
def hear (path interface member : String) (arguments : List Value) (w : Watcher) : Watcher :=
  if w.hears path interface member then { w with work := w.work.notify arguments } else w

def isIdle (w : Watcher) : Bool := w.work.isIdle

def isDone (w : Watcher) : Bool := w.work.isDone

end Watcher

/-- What a slot is found by: the number of its owners and the kind of its observers. -/
structure SlotKey where
  owner : Nat
  kind : WatchKind
deriving DecidableEq, Repr

/-- The slots, in the order in which their observers take turns. -/
abbrev Board := List (SlotKey × Observer.Slot Watcher)

namespace Board

/-- The slot with a key, which is empty if nothing was registered in it. -/
def slot (b : Board) (key : SlotKey) : Observer.Slot Watcher := (b.lookup key).getD .empty

/-- The board with an observer registered in a slot. -/
def register (b : Board) (key : SlotKey) (w : Watcher) : Board :=
  b.filter (fun e => e.1 != key) ++ [(key, (slot b key).register w)]

/-- The board after a signal with the given arguments has been sent. -/
def deliver (b : Board) (path interface member : String) (arguments : List Value) : Board :=
  b.map fun e => (e.1, e.2.update (Watcher.hear path interface member arguments))

/-- The board without observers in slots that are not owned. -/
def keep (b : Board) (owned : Nat → Bool) : Board :=
  b.map fun e => if owned e.1.owner then e else (e.1, e.2.abandon)

/-- The board after all observers have finished. -/
def finish (b : Board) : Board := b.map fun e => (e.1, e.2.finish)

/-- Whether the observer in a slot has nothing to do. -/
def isAtRest (slot : Observer.Slot Watcher) : Bool := slot.running?.all Watcher.isIdle

/-- Whether no observer has anything to do. -/
def isIdle (b : Board) : Bool := b.all fun e => isAtRest e.2

end Board

end ModemLink
