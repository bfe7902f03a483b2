import ModemLink.Manager.Announcement

/-!
# The tracker

Keeps the registry of modems in step with what the modem daemon announces. Announcements and
removals wait in a queue each. Whenever the tracker is free it takes up a change from one of the
queues; every time it looks, it looks at the other queue first. While it asks an announced modem for
its identity both queues wait.

* `Tracker.next?`: the next change, and the tracker that has taken it up.
* `Tracker.step`: one step of the tracker with the registry.
-/

namespace ModemLink

/-- A change of the objects on the bus. -/
inductive ObjectChange
  | added (a : Announcement)
  | removed (r : Removal)

/-- The registry of modems. A handle is known by a number, which stands for its observers: handles
with one number share them. -/
abbrev Modems := Registry Nat

/-- The changes that wait, and what the tracker is occupied with. -/
structure Tracker where
  announcements : List Announcement
  removals : List Removal
  /-- Whether it looks at the removals first the next time. -/
  removalsFirst : Bool
  /-- The path of the modem that it identifies, with what remains to be asked. -/
  identifying : Option (String × Request String)

namespace Tracker

/-- A tracker that has nothing to do. -/
def idle : Tracker := ⟨[], [], false, none⟩

/-- Whether the tracker has nothing to do. -/
def isIdle (t : Tracker) : Bool :=
  t.announcements.isEmpty && t.removals.isEmpty && t.identifying.isNone

/-- The tracker with one more change to take up. -/
def notify (t : Tracker) : ObjectChange → Tracker
  | .added a => { t with announcements := t.announcements ++ [a] }
  | .removed r => { t with removals := t.removals ++ [r] }

/-- The first announcement, if there is one. -/
def nextAnnouncement? (t : Tracker) : Option (ObjectChange × Tracker) :=
  match t.announcements with
  | [] => none
  | a :: rest => some (.added a, { t with announcements := rest })

/-- The first removal, if there is one. -/
def nextRemoval? (t : Tracker) : Option (ObjectChange × Tracker) :=
  match t.removals with
  | [] => none
  | r :: rest => some (.removed r, { t with removals := rest })

/-- The next change, without it in its queue, and with the other queue first in turn. -/
def next? (t : Tracker) : Option ObjectChange × Tracker :=
  let turned := { t with removalsFirst := !t.removalsFirst }
  let taken :=
    if t.removalsFirst then turned.nextRemoval?.or turned.nextAnnouncement?
    else turned.nextAnnouncement?.or turned.nextRemoval?
  match taken with
  | some (change, rest) => (some change, rest)
  | none => (none, turned)

/-- Takes up a change. -/
def take (t : Tracker) (modems : Modems) : ObjectChange → Tracker × Modems
  | .added a =>
    (if a.isModem then { t with identifying := some (a.path, a.identify) } else t, modems)
  | .removed r => (t, if r.removesModem then (modems.remove r.path).1 else modems)

/-- One step: goes on with the modem that is being identified as far as possible without asking, or
takes up the next change. A modem that becomes known has the number `fresh`. -/
def step (t : Tracker) (linked : Bool) (fresh : Nat) (modems : Modems) : Tracker × Modems :=
  match t.identifying with
  | none =>
    match t.next? with
    | (none, t) => (t, modems)
    | (some change, t) => t.take modems change
  | some (path, identify) =>
    match identify.proceed linked with
    | .done identity => ({ t with identifying := none }, (modems.add ⟨path, fresh⟩ identity).1)
    | .fail _ => ({ t with identifying := none }, modems)
    | blocked => ({ t with identifying := some (path, blocked) }, modems)

/-- The question whose reply the tracker waits for. -/
def question? (t : Tracker) : Option Bus.Query :=
  match t.identifying with
  | some (_, .ask q _) => some q
  | _ => none

/-- The tracker with the reply that it waits for. -/
def reply (t : Tracker) (r : Bus.Reply) : Tracker :=
  match t.identifying with
  | some (path, .ask _ next) => { t with identifying := some (path, next r) }
  | _ => t

end Tracker

end ModemLink
