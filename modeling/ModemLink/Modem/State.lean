/-!
# Modem states

The general state of a modem, ordered by what the modem can do, and the requirements that guarded
operations put on it.

* `State.ofCode`: the state of a numeric code; codes without a state of their own are `unknown`.
* `Requirement.isMetBy`: at least a state, or exactly a state.
-/

namespace ModemLink

/-- The general state of a modem, from the least capable to the most capable. -/
inductive State
  | failed
  | unknown
  | initializing
  | locked
  | disabled
  | disabling
  | enabling
  | enabled
  | searching
  | registered
  | disconnecting
  | connecting
  | connected
deriving DecidableEq, Repr, Inhabited

namespace State

/-- All states, the least capable first. -/
def all : List State :=
  [failed, unknown, initializing, locked, disabled, disabling, enabling, enabled, searching,
    registered, disconnecting, connecting, connected]

/-- The place of a state in the order of capability. -/
def rank : State → Nat
  | failed => 0
  | unknown => 1
  | initializing => 2
  | locked => 3
  | disabled => 4
  | disabling => 5
  | enabling => 6
  | enabled => 7
  | searching => 8
  | registered => 9
  | disconnecting => 10
  | connecting => 11
  | connected => 12

instance : LE State := ⟨fun a b => a.rank ≤ b.rank⟩
instance : LT State := ⟨fun a b => a.rank < b.rank⟩
instance (a b : State) : Decidable (a ≤ b) := inferInstanceAs (Decidable (a.rank ≤ b.rank))
instance (a b : State) : Decidable (a < b) := inferInstanceAs (Decidable (a.rank < b.rank))
instance : Ord State := ⟨fun a b => compare a.rank b.rank⟩

/-- The state with a numeric code. -/
def ofCode (code : Int32) : State :=
  match code.toInt with
  | -1 => failed
  | 1 => initializing
  | 2 => locked
  | 3 => disabled
  | 4 => disabling
  | 5 => enabling
  | 6 => enabled
  | 7 => searching
  | 8 => registered
  | 9 => disconnecting
  | 10 => connecting
  | 11 => connected
  | _ => unknown

/-- The state as a word of a sentence. -/
def text : State → String
  | failed => "failed"
  | unknown => "unknown"
  | initializing => "initializing"
  | locked => "locked"
  | disabled => "disabled"
  | disabling => "disabling"
  | enabling => "enabling"
  | enabled => "enabled"
  | searching => "searching"
  | registered => "registered"
  | disconnecting => "disconnecting"
  | connecting => "connecting"
  | connected => "connected"

/-- The state as a name, for records. -/
def name : State → String
  | failed => "Failed"
  | unknown => "Unknown"
  | initializing => "Initializing"
  | locked => "Locked"
  | disabled => "Disabled"
  | disabling => "Disabling"
  | enabling => "Enabling"
  | enabled => "Enabled"
  | searching => "Searching"
  | registered => "Registered"
  | disconnecting => "Disconnecting"
  | connecting => "Connecting"
  | connected => "Connected"

theorem mem_all (s : State) : s ∈ all := by cases s <;> decide

end State

/-- What an operation requires of the state of a modem. -/
inductive Requirement
  /-- The modem is in this state or one above it. -/
  | atLeast (s : State)
  /-- The modem is in this state. -/
  | exactly (s : State)
deriving DecidableEq, Repr

namespace Requirement

/-- The state that a requirement names. -/
def state : Requirement → State
  | atLeast s => s
  | exactly s => s

def isMetBy : Requirement → State → Bool
  | atLeast s, actual => decide (s ≤ actual)
  | exactly s, actual => decide (actual = s)

theorem isMetBy_iff {r : Requirement} {actual : State} :
    r.isMetBy actual = true ↔ (∃ s, r = atLeast s ∧ s ≤ actual) ∨ r = exactly actual := by
  cases r with
  | atLeast s => simp [isMetBy]
  | exactly s => simp [isMetBy, eq_comm]

def text : Requirement → String
  | atLeast s => "at least " ++ s.text
  | exactly s => s.text

end Requirement

end ModemLink
