import ModemLink.Bus.Declared
import ModemLink.Bus.Names
import ModemLink.Program.Basic

/-!
# Queries

What is asked of the objects on the bus, and programs that ask one thing.

A reply is the body of a message or a fault. A body that does not have the declared type is a fault
of its own, so a program never goes on with a value of another type.

* `Request.property`, `Request.write`: reads and writes a property.
* `Request.command`: calls a method.
* `Request.subscribe`: asks for the signals of an object.
-/

namespace ModemLink

namespace Bus

/-- The signals of one name that one object sends. -/
structure Subscription where
  service : Service
  path : String
  interface : String
  member : String
deriving DecidableEq, Repr

/-- The signals about changed properties of an object. -/
def Subscription.changes (service : Service) (path : String) : Subscription :=
  ⟨service, path, Interface.properties, "PropertiesChanged"⟩

/-- What is asked of an object. -/
inductive Query
  | get (service : Service) (path interface name : String)
  | set (service : Service) (path interface name : String) (value : Value)
  | call (service : Service) (path interface member : String) (arguments : List Value)
  | subscribe (subscription : Subscription)

/-- The service that a query is for. -/
def Query.service : Query → Service
  | get service _ _ _ => service
  | set service _ _ _ _ => service
  | call service _ _ _ _ => service
  | subscribe s => s.service

/-- The body of the answer, or why there is none. -/
abbrev Reply := Except Fault (List Value)

/-- What a reply of a declared type holds. -/
def Reply.content {α : Type} (type : BodyType α) (reply : Reply) : Except Fault α :=
  reply.bind type.read

theorem Reply.content_single {α : Type} {type : ValueType α} {reply : Reply} {a : α} :
    reply.content (.single type) = .ok a ↔ ∃ v, reply = .ok [v] ∧ type.read? v = some a := by
  constructor
  · intro h
    cases reply with
    | error f => cases h
    | ok body =>
      simp only [content, Except.bind, BodyType.read, BodyType.single] at h
      split at h
      · rename_i hRead
        split at hRead
        · rename_i v
          exact ⟨v, rfl, hRead.trans (congrArg some (Except.ok.inj h))⟩
        · cases hRead
      · cases h
  · rintro ⟨v, rfl, hRead⟩
    simp only [content, Except.bind, BodyType.read, BodyType.single, hRead]

theorem Reply.content_boolean {reply : Reply} {b : Bool}
    (h : reply.content (.single .boolean) = .ok b) : reply = .ok [.boolean b] := by
  obtain ⟨v, rfl, hRead⟩ := content_single.mp h
  cases v with
  | boolean n => rw [Option.some.inj hRead]
  | _ => cases hRead

end Bus

/-- A program that asks objects on the bus. -/
abbrev Request (α : Type) := Program Bus.Query Bus.Reply α

namespace Request

variable {α : Type}

open Bus

/-- Asks a question whose reply is declared to be of a type; a fault becomes an error by `failure`.
-/
def asking (q : Query) (type : BodyType α) (failure : Fault → Error) : Request α :=
  .ask q fun reply => .ofExcept ((reply.content type).mapError failure)

/-- Reads a property. -/
def property (service : Service) (path interface name : String) (type : ValueType α) :
    Request α :=
  asking (.get service path interface name) (.single type) fun f => .bus f.standard

/-- Writes a property. -/
def write (service : Service) (path interface name : String) (value : Value) : Request Unit :=
  asking (.set service path interface name value) .nothing fun f => .bus f.standard

/-- Calls a method. -/
def command (service : Service) (path interface member : String) (arguments : List Value)
    (reply : BodyType α) (failure : Fault → Error) : Request α :=
  asking (.call service path interface member arguments) reply failure

/-- Asks for signals, and gives the subscription. There is none if nobody is there to send them; if
somebody does so later on, nothing of it is heard. -/
def subscribe (s : Subscription) : Request (Option Subscription) := do
  return if ← asking (.subscribe s) (.single .boolean) .bus then some s else none

end Request

end ModemLink
