/-!
# Configuration

Durations that a manager works with, in milliseconds, and the refresh rate of signal reports, which
the modem takes in whole seconds.

* `refreshSeconds`: the whole seconds of a duration, at least one and at most what 32 bits hold, so
  that a rate is never the zero that turns the reports off.
-/

namespace ModemLink

/-- How a manager works. -/
structure Config where
  /-- How often signal quality is reported when reports have to be turned on. -/
  signalRefresh : Nat := 5000
  /-- How long a reset may wait for the modem to come back; without a limit it waits on. -/
  resetTimeout : Option Nat := none
deriving DecidableEq, Repr, Inhabited

/-- The refresh rate, in whole seconds, for a duration in milliseconds. -/
def refreshSeconds (milliseconds : Nat) : UInt32 :=
  .ofNat (max 1 (min (milliseconds / 1000) (UInt32.size - 1)))

end ModemLink
