/-!
# The shutdown channel

The channel that a manager keeps open while it exists. Whoever watches it has seen some of the
values that were sent on it. Only its closing counts: values are looked at and passed over.

* `Shutdown.look`: what a watcher finds.
* `Shutdown.watch`: all looks up to the first one that finds neither a value nor the end.
-/

namespace ModemLink.Observer

/-- A shutdown channel. -/
structure Shutdown where
  /-- How many values were sent on it. -/
  sent : Nat
  isClosed : Bool
deriving DecidableEq, Repr

namespace Shutdown

/-- An open channel on which nothing was sent. -/
def silent : Shutdown := ⟨0, false⟩

/-- The channel with one more value. Nothing can be sent once it is closed. -/
def send (c : Shutdown) : Shutdown := if c.isClosed then c else { c with sent := c.sent + 1 }

@[simp] theorem isClosed_send (c : Shutdown) : c.send.isClosed = c.isClosed := by
  unfold send
  split <;> rfl

def close (c : Shutdown) : Shutdown := { c with isClosed := true }

/-- What a watcher finds. -/
inductive Sight
  | value
  | closed
  | nothing
deriving DecidableEq, Repr

/-- What a watcher finds who has seen the given number of values. A value comes before the end. -/
def look (c : Shutdown) (seen : Nat) : Sight :=
  if seen ≠ c.sent then .value
  else if c.isClosed then .closed
  else .nothing

theorem look_eq_value_iff {c : Shutdown} {seen : Nat} : c.look seen = .value ↔ seen ≠ c.sent := by
  unfold look
  split
  · simpa
  · split <;> simp_all

/-- Looks until there is no value: how many values are seen then, and whether the channel is
closed. A look sees all the values there are. -/
def watch (c : Shutdown) (seen : Nat) : Nat × Bool :=
  match _h : c.look seen with
  | .value => c.watch c.sent
  | .closed => (seen, true)
  | .nothing => (seen, false)
termination_by if seen = c.sent then 0 else 1
decreasing_by simp [look_eq_value_iff.mp _h]

/-- The values do not matter for what a watch ends with. -/
theorem watch_eq (c : Shutdown) (seen : Nat) : c.watch seen = (c.sent, c.isClosed) := by
  have hSeen : c.watch c.sent = (c.sent, c.isClosed) := by
    rw [watch]
    cases hClosed : c.isClosed <;> split <;> simp_all [look]
  by_cases hUnseen : seen = c.sent
  · rw [hUnseen, hSeen]
  · have hValue : c.look seen = .value := look_eq_value_iff.mpr hUnseen
    rw [watch]
    split <;> simp_all

end Shutdown

end ModemLink.Observer
