import ModemLink.Program.Basic

/-!
# Observing work

The work of an observer. Every notice it gets gives rise to readings, which are done one after the
other and in the order of the notices. A reading that succeeds is delivered to whoever observes; one
that fails is passed over.

* `Work.poll`: goes on until a reading waits for a reply or no notice is left.
* `Work.run`: all of the work in an environment that answers at once.
-/

namespace ModemLink.Observer

/-- The work of an observer that reacts to notices of type `ν` and delivers values of type `ε`. -/
structure Work (Q R ν ε : Type) where
  /-- The readings that a notice gives rise to. -/
  react : ν → List (Program Q R ε)
  /-- The notices not yet reacted to, in the order in which they came. -/
  inbox : List ν
  /-- The readings of the last notice reacted to that are not finished. -/
  readings : List (Program Q R ε)
  /-- Whether no further notice will come. -/
  ended : Bool

namespace Work

variable {Q R ν ε σ : Type}

/-- Work that has not got a notice yet. -/
def ofReact (react : ν → List (Program Q R ε)) : Work Q R ν ε := ⟨react, [], [], false⟩

/-- The work with one more notice. -/
def notify (w : Work Q R ν ε) (n : ν) : Work Q R ν ε := { w with inbox := w.inbox ++ [n] }

/-- Whether nothing is left to do now. -/
def isIdle (w : Work Q R ν ε) : Bool := w.inbox.isEmpty && w.readings.isEmpty

/-- Whether nothing will ever be left to do. -/
def isDone (w : Work Q R ν ε) : Bool := w.ended && w.isIdle

/-- Goes through readings until one waits for a reply: what they deliver, and what is left. -/
def pass (linked : Bool) : List (Program Q R ε) → List ε × List (Program Q R ε)
  | [] => ([], [])
  | p :: rest =>
    match p.proceed linked with
    | .done e =>
      let (delivered, left) := pass linked rest
      (e :: delivered, left)
    | .fail _ => pass linked rest
    | blocked => ([], blocked :: rest)

/-- Goes through notices until a reading waits for a reply: what they deliver, the notices and the
readings that are left. -/
def passNotices (react : ν → List (Program Q R ε)) (linked : Bool) :
    List ν → List ε × List ν × List (Program Q R ε)
  | [] => ([], [], [])
  | n :: rest =>
    match pass linked (react n) with
    | (delivered, []) =>
      let (more, left) := passNotices react linked rest
      (delivered ++ more, left)
    | (delivered, left) => (delivered, rest, left)

/-- Goes on until a reading waits for a reply or no notice is left, and gives what is delivered. -/
def poll (linked : Bool) (w : Work Q R ν ε) : Work Q R ν ε × List ε :=
  match pass linked w.readings with
  | (delivered, []) =>
    let (more, inbox, readings) := passNotices w.react linked w.inbox
    ({ w with inbox, readings }, delivered ++ more)
  | (delivered, readings) => ({ w with readings }, delivered)

/-- The question whose reply the work waits for. -/
def question? (w : Work Q R ν ε) : Option Q :=
  match w.readings with
  | .ask q _ :: _ => some q
  | _ => none

/-- The work with the reply it waits for. -/
def reply (w : Work Q R ν ε) (r : R) : Work Q R ν ε :=
  match w.readings with
  | .ask _ next :: rest => { w with readings := next r :: rest }
  | _ => w

/-! ## Running all of it -/

/-- Something an observer does that can be seen from outside. -/
inductive Happening (Q ε : Type)
  | asked (q : Q)
  | delivered (e : ε)
deriving Repr

/-- Does readings in an environment that answers at once. -/
def runReadings (answer : σ → Q → R × σ) (linked : Bool) :
    List (Program Q R ε) → σ → List (Happening Q ε) × σ
  | [], s => ([], s)
  | p :: rest, s =>
    let outcome := p.run answer linked s
    let asked := outcome.trace.map fun t => Happening.asked t.1
    let delivered :=
      match outcome.result with
      | .ok e => [Happening.delivered e]
      | .error _ => []
    let (more, s) := runReadings answer linked rest outcome.state
    (asked ++ delivered ++ more, s)

/-- Reacts to notices in an environment that answers at once. -/
def runNotices (react : ν → List (Program Q R ε)) (answer : σ → Q → R × σ) (linked : Bool) :
    List ν → σ → List (Happening Q ε) × σ
  | [], s => ([], s)
  | n :: rest, s =>
    let (first, s) := runReadings answer linked (react n) s
    let (more, s) := runNotices react answer linked rest s
    (first ++ more, s)

/-- Does all of the work in an environment that answers at once. -/
def run (answer : σ → Q → R × σ) (linked : Bool) (w : Work Q R ν ε) (s : σ) :
    List (Happening Q ε) × σ :=
  let (first, s) := runReadings answer linked w.readings s
  let (more, s) := runNotices w.react answer linked w.inbox s
  (first ++ more, s)

end Work

end ModemLink.Observer
