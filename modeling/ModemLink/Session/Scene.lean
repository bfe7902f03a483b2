import ModemLink.Bus.World
import ModemLink.Remote.Watch

/-!
# Scenes

A scripted bus together with what has been seen of a program on it: the calls that it has made and
what its observers have been told.

* `Scene.ask`: asks the bus and takes the call down.
-/

namespace ModemLink

/-- A scripted bus with a record of what has happened. -/
structure Scene where
  world : Bus.World
  /-- The calls in their order. -/
  calls : List Bus.Query
  /-- What observers were told, in order, with the tags of the observers. -/
  events : List (String × Notification)

namespace Scene

/-- Whether a query is a call. Asking for signals is none. -/
def isCall : Bus.Query → Bool
  | .subscribe _ => false
  | _ => true

/-- Asks the bus. -/
def ask (s : Scene) (q : Bus.Query) : Bus.Reply × Scene :=
  let (reply, world) := s.world.answer q
  (reply, { s with world, calls := if isCall q then s.calls ++ [q] else s.calls })

/-- The scene after observers have been told something. -/
def tell (s : Scene) (told : List (String × Notification)) : Scene :=
  { s with events := s.events ++ told }

/-- The scene with nothing on record. -/
def fresh (s : Scene) : Scene := { s with calls := [], events := [] }

/-- The scene with another bus. -/
def change (s : Scene) (f : Bus.World → Bus.World) : Scene := { s with world := f s.world }

end Scene

end ModemLink
