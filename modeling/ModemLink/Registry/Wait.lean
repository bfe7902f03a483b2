import ModemLink.Registry.Basic

/-!
# Waiting for a request

A wait with a limit looks at two things on every poll: whether the request has an outcome and
whether the time is over. When both hold it may go by either of them.

* `poll`: one poll, with what it goes by when it has the choice.
-/

namespace ModemLink.Registry.Wait

/-- What a poll goes by when the request has an outcome and the time is over. -/
inductive Choice
  | outcome
  | timer
deriving DecidableEq, Repr

variable {H : Type}

/-- One poll of a wait for a request: its result, if it is over. Without a limit, time is never
over. -/
def poll (r : Registry H) (id : RequestId) (expired : Bool) (choice : Choice) :
    Option (Except Error (Tracked H)) :=
  match r.outcome? id, expired, choice with
  | some outcome, true, .outcome => some outcome
  | some _, true, .timer => some (.error .timeout)
  | some outcome, false, _ => some outcome
  | none, true, _ => some (.error .timeout)
  | none, false, _ => none

end ModemLink.Registry.Wait
