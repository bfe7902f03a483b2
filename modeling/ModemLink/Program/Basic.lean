import ModemLink.Error

/-!
# Programs that ask

A program computes a result by asking questions, one at a time, of an environment it knows nothing
about. It is the tree of its questions, with one branch for each possible reply. Between a question
and its reply other programs may run. Besides asking, a program may look whether the manager it
belongs to still exists.

* `Program.run`: the run in an environment with a state, with all questions and their replies.
* `Program.attempt`: the result of a program, or its error, as a value.
-/

namespace ModemLink

/-- A program that asks questions of type `Q`, gets replies of type `R` and ends with an `α` or with
an error. -/
inductive Program (Q R : Type) (α : Type) : Type
  | done (a : α)
  | fail (e : Error)
  /-- Asks and goes on with the reply. -/
  | ask (q : Q) (next : R → Program Q R α)
  /-- Goes on with whether the manager still exists. -/
  | whetherLinked (next : Bool → Program Q R α)

namespace Program

variable {Q R α β σ : Type}

/-- Runs one program after another. -/
def bind : Program Q R α → (α → Program Q R β) → Program Q R β
  | done a, f => f a
  | fail e, _ => fail e
  | ask q next, f => ask q fun r => bind (next r) f
  | whetherLinked next, f => whetherLinked fun b => bind (next b) f

instance : Monad (Program Q R) where
  pure := done
  bind := bind

/-- The program that asks `q` and ends with the reply. -/
def asking (q : Q) : Program Q R R := ask q done

/-- The program that ends with a known result. -/
def ofExcept : Except Error α → Program Q R α
  | .ok a => done a
  | .error e => fail e

/-- Fails unless the manager still exists. -/
def connection : Program Q R Unit :=
  whetherLinked fun linked => if linked then done () else fail .managerDropped

/-- The result of a program, or its error, as a value. -/
def attempt : Program Q R α → Program Q R (Except Error α)
  | done a => done (.ok a)
  | fail e => done (.error e)
  | ask q next => ask q fun r => attempt (next r)
  | whetherLinked next => whetherLinked fun b => attempt (next b)

/-- The program as far as it goes without asking. -/
def proceed (linked : Bool) : Program Q R α → Program Q R α
  | whetherLinked next => proceed linked (next linked)
  | p => p

/-- What has come of running a program. -/
structure Outcome (Q R α σ : Type) where
  result : Except Error α
  /-- The state of the environment afterwards. -/
  state : σ
  /-- The questions with their replies, in order. -/
  trace : List (Q × R)

/-- Runs a program in an environment that answers questions and changes its state by them. -/
def run (answer : σ → Q → R × σ) (linked : Bool) : Program Q R α → σ → Outcome Q R α σ
  | done a, s => ⟨.ok a, s, []⟩
  | fail e, s => ⟨.error e, s, []⟩
  | ask q next, s =>
    let reply := answer s q
    let rest := run answer linked (next reply.1) reply.2
    { rest with trace := (q, reply.1) :: rest.trace }
  | whetherLinked next, s => run answer linked (next linked) s

/-! ## Laws -/

@[simp] theorem pure_eq (a : α) : (pure a : Program Q R α) = done a := rfl

@[simp] theorem bind_eq (p : Program Q R α) (f : α → Program Q R β) : p >>= f = p.bind f := rfl

theorem bind_assoc {γ : Type} (p : Program Q R α) (f : α → Program Q R β)
    (g : β → Program Q R γ) : (p.bind f).bind g = p.bind fun a => (f a).bind g := by
  induction p with
  | done a => rfl
  | fail e => rfl
  | ask q next ih => exact congrArg (ask q) (funext fun r => ih r)
  | whetherLinked next ih => exact congrArg whetherLinked (funext fun b => ih b)

end Program

end ModemLink
