import ModemLink.Error
import ModemLink.Modem.Filter

/-!
# The registry

The objects that are known, in the order in which they appeared, and the one await request that can
be pending. A new request cancels the one before it. Only the appearance of an object that was not
known resolves a request; announcing a known object again refreshes its identity and nothing else.

Requests are numbered in the order in which they are made. What has become of a request is kept
under its number, also after it is no longer pending.

* `add`, `remove`, `await`, `abandon`, `close`: the changes.
* `list`, `first?`, `identityOf?`, `outcome?`: the views.
-/

namespace ModemLink

/-- A handle to an object, with the path at which the object was announced. -/
structure Tracked (H : Type) where
  path : String
  handle : H
deriving DecidableEq, Repr

namespace Registry

/-- A known object with its identity, which is empty if it has none. -/
structure Entry (H : Type) where
  object : Tracked H
  identity : String
deriving DecidableEq, Repr

/-- The number of an await request. -/
abbrev RequestId := Nat

/-- What has become of a request. -/
inductive Future (H : Type)
  | waiting
  | resolved (object : Tracked H)
  | cancelled
  /-- Nobody waits for the outcome any more. -/
  | abandoned
deriving DecidableEq, Repr

end Registry

/-- The known objects and the requests. -/
structure Registry (H : Type) where
  /-- In the order in which the objects appeared. -/
  known : List (Registry.Entry H)
  /-- The request that an object may still resolve. -/
  pending : Option (Registry.RequestId × ModemFilter)
  /-- What has become of the requests, by their numbers. -/
  futures : List (Registry.Future H)
deriving DecidableEq, Repr

namespace Registry

variable {H : Type}

def empty : Registry H := ⟨[], none, []⟩

/-! ## Views -/

def knows (r : Registry H) (path : String) : Bool := r.known.any fun e => e.object.path == path

/-- The known objects, in the order in which they appeared. -/
def list (r : Registry H) : List (Tracked H) := r.known.map Entry.object

def first? (r : Registry H) : Option (Tracked H) := r.known.head?.map Entry.object

/-- The identity of the object at a path, if the object is known and has one. -/
def identityOf? (r : Registry H) (path : String) : Option String :=
  ((r.known.find? fun e => e.object.path == path).map Entry.identity).filter (!·.isEmpty)

/-- The outcome of a request that has one. -/
def outcome? (r : Registry H) (id : RequestId) : Option (Except Error (Tracked H)) :=
  match r.futures[id]? with
  | some (.resolved object) => some (.ok object)
  | some .cancelled => some (.error .cancelled)
  | _ => none

/-- How many objects are known and whether a request is pending. -/
def text (r : Registry H) : String :=
  "ObjectRegistry \x7b known: " ++ toString r.known.length ++ ", pending: " ++
    (if r.pending.isSome then "true" else "false") ++ " \x7d"

/-! ## Changes -/

/-- The entry with a new identity, unless the new one is empty. -/
def Entry.refresh (e : Entry H) (identity : String) : Entry H :=
  if identity.isEmpty then e else { e with identity }

/-- The registry after a new object with the given identity is offered to the pending request. A
request that nobody waits for any more is dropped. -/
def offer (r : Registry H) (object : Tracked H) (identity : String) : Registry H :=
  match r.pending with
  | none => r
  | some (id, filter) =>
    match r.futures[id]? with
    | some .waiting =>
      if filter.accepts identity then
        { r with pending := none, futures := r.futures.set id (.resolved object) }
      else r
    | _ => { r with pending := none }

/-- The registry after an object is announced, and whether it was not known before. -/
def add (r : Registry H) (object : Tracked H) (identity : String) : Registry H × Bool :=
  if r.knows object.path then
    ({ r with
        known := r.known.map fun e =>
          if e.object.path = object.path then e.refresh identity else e }, false)
  else
    (({ r with known := r.known ++ [⟨object, identity⟩] } : Registry H).offer object identity, true)

/-- The registry after the object at a path is gone, and whether it was known. -/
def remove (r : Registry H) (path : String) : Registry H × Bool :=
  ({ r with known := r.known.filter fun e => e.object.path != path }, r.knows path)

/-- What becomes of the pending request when it can no longer be resolved. -/
def cancelPending (r : Registry H) : Registry H :=
  match r.pending with
  | none => r
  | some (id, _) =>
    match r.futures[id]? with
    | some .waiting => { r with pending := none, futures := r.futures.set id .cancelled }
    | _ => { r with pending := none }

/-- The registry with a new request in place of the pending one, and the number of the request. -/
def await (r : Registry H) (filter : ModemFilter) : Registry H × RequestId :=
  let r := r.cancelPending
  ({ r with
      pending := some (r.futures.length, filter)
      futures := r.futures ++ [.waiting] }, r.futures.length)

/-- The registry after nobody waits for the outcome of a request any more. -/
def abandon (r : Registry H) (id : RequestId) : Registry H :=
  { r with futures := r.futures.set id .abandoned }

/-- The registry after its manager is gone: nothing is known, and the pending request ends like one
that is replaced. -/
def close (r : Registry H) : Registry H := { r.cancelPending with known := [] }

end Registry

end ModemLink
