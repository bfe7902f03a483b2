import ModemLink.Registry.Wait

/-!
# Requests by name

A registry whose requests are known to their owner by names. A name stands for a request until its
outcome has been taken or nobody waits for it any more. Handles are the places of the steps that
announced the objects.

* `Step`, `Answer`: what can be done, and what it gives.
* `Named.step`, `Named.run`: one step, and a list of them.
-/

namespace ModemLink.Registry

/-- One use of a registry. -/
inductive Step
  | add (path identity : String)
  | remove (path : String)
  | await (name : String) (filter : ModemFilter)
  | poll (name : String)
  /-- Waits for an outcome, until the time is over if there is a limit. -/
  | within (name : String) (limited : Bool)
  | abandon (name : String)
  | list
  | first
  | identityOf (path : String)
  | text
deriving Repr

/-- What a use of a registry gives. -/
inductive Answer
  | done
  | flag (b : Bool)
  | outcome (r : Except Error (Tracked Nat))
  | pending
  | noSuchRequest
  | objects (items : List (Tracked Nat))
  | object (o : Option (Tracked Nat))
  | identity (o : Option String)
  | text (s : String)

/-- A registry with the names of its requests and the number of steps so far. -/
structure Named where
  registry : Registry Nat
  names : List (String × RequestId)
  steps : Nat

namespace Named

def empty : Named := ⟨.empty, [], 0⟩

/-- Forgets a name and the request it stands for. -/
def forget (n : Named) (name : String) : Named :=
  match n.names.lookup name with
  | none => n
  | some id =>
    { n with
      registry := n.registry.abandon id
      names := n.names.filter fun e => e.1 != name }

/-- The outcome of the request with a name, after which the name stands for nothing. -/
def take (n : Named) (name : String)
    (outcome : RequestId → Option (Except Error (Tracked Nat))) : Named × Answer :=
  match n.names.lookup name with
  | none => (n, .noSuchRequest)
  | some id =>
    match outcome id with
    | none => (n, .pending)
    | some o => (n.forget name, .outcome o)

/-- A new request under a name; the request that had the name is made no more use of afterwards. -/
def await (n : Named) (name : String) (filter : ModemFilter) : Named :=
  let (registry, id) := n.registry.await filter
  let n := { n with registry }.forget name
  { n with names := (name, id) :: n.names }

/-- The effect and the answer of one step, apart from its being counted. -/
def act (n : Named) : Step → Named × Answer
  | .add path identity =>
    let (registry, new) := n.registry.add ⟨path, n.steps⟩ identity
    ({ n with registry }, .flag new)
  | .remove path =>
    let (registry, known) := n.registry.remove path
    ({ n with registry }, .flag known)
  | .await name filter => (n.await name filter, .done)
  | .poll name => n.take name n.registry.outcome?
  | .within name limited =>
    n.take name fun id =>
      match Wait.poll n.registry id false .outcome with
      | some o => some o
      | none => Wait.poll n.registry id limited .outcome
  | .abandon name => (n.forget name, .flag (n.names.lookup name).isSome)
  | .list => (n, .objects n.registry.list)
  | .first => (n, .object n.registry.first?)
  | .identityOf path => (n, .identity (n.registry.identityOf? path))
  | .text => (n, .text n.registry.text)

/-- The effect and the answer of one step. -/
def step (n : Named) (s : Step) : Named × Answer :=
  let (next, answer) := n.act s
  ({ next with steps := n.steps + 1 }, answer)

/-- The answers of steps in turn. -/
def run (n : Named) : List Step → List Answer
  | [] => []
  | s :: rest =>
    let (next, answer) := n.step s
    answer :: next.run rest

end Named

end ModemLink.Registry
