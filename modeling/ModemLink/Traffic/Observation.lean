import ModemLink.Modem.Codes
import ModemLink.Observer.Work

/-!
# Observing traffic

The byte counters of a network interface come from a provider, which refreshes them at a rate that
can be set. Observing them sets the rate, asks for the refreshes and then reads the counters once
for each refresh.
-/

namespace ModemLink.Traffic

/-- A source of byte counters. Its refreshes come as a stream, described by an `S`. -/
structure Provider (Q R S : Type) where
  /-- Reads the counters of an interface. -/
  read : String → Program Q R TrafficStats
  /-- Sets how often the counters of an interface are refreshed, in milliseconds. -/
  setRefreshRate : String → UInt32 → Program Q R Unit
  /-- The refreshes of the counters of an interface. -/
  refreshes : String → Program Q R S

variable {Q R S : Type}

/-- The reaction to a refresh: one reading of the counters. -/
def onRefresh (p : Provider Q R S) (interface : String) : Unit → List (Program Q R TrafficStats) :=
  fun _ => [p.read interface]

/-- Sets the rate and asks for the refreshes of an interface. -/
def prepare (p : Provider Q R S) (interface : String) (interval : UInt32) : Program Q R S := do
  p.setRefreshRate interface interval
  p.refreshes interface

end ModemLink.Traffic
