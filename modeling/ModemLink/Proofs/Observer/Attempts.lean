import Mathlib.Logic.Function.Basic
import ModemLink.Proofs.Observer.Single

/-!
# Attempts to register

A call that registers an observer asks questions first. While it waits for a reply anything may go
on around the slot, calls of the same kind included. Such an attempt is a program that ends with an
observer or with an error; nothing is assumed about its questions, about the replies, or about what
happens between them. An attempt touches the slot only by the registration with which it ends.

* `Attempts.step`, `Attempts.run`: what happens to attempts and around their slot.
* `Attempts.run_without`: without the acts of an attempt that does not register its observer all
  else is the same.
* `Attempts.shared_run`: if none of the attempts does, the slot is what is made of it by others.
* `Attempts.run_atOnce`: an attempt that is not interrupted runs as its program does.
-/

namespace ModemLink.Observer

variable {ι Q R W A β σ : Type} [DecidableEq ι]

/-- How far an attempt to register an observer has come. -/
inductive Attempt (Q R W : Type)
  | underWay (p : Program Q R W)
  | registered
  | failed (e : Error)
  /-- Nobody waits for it any more. -/
  | givenUp

namespace Attempt

/-- The attempt after it has gone on as far as it can without a reply, and the observer with which
it has ended. -/
def turn (linked : Bool) : Attempt Q R W → Attempt Q R W × Option W
  | underWay p =>
    match p.proceed linked with
    | .done w => (registered, some w)
    | .fail e => (failed e, none)
    | waiting => (underWay waiting, none)
  | a => (a, none)

/-- The attempt with the reply that it waits for. -/
def reply (r : R) : Attempt Q R W → Attempt Q R W
  | underWay (.ask _ next) => underWay (next r)
  | a => a

def giveUp : Attempt Q R W → Attempt Q R W
  | underWay _ => givenUp
  | a => a

/-- Only an attempt that counts as registered has ended with an observer. -/
theorem turn_cases (linked : Bool) (a : Attempt Q R W) :
    (a.turn linked).2 = none ∨ ∃ p w, a = .underWay p ∧ a.turn linked = (.registered, some w) := by
  cases a with
  | underWay p =>
    simp only [turn]
    split
    · exact .inr ⟨p, _, rfl, rfl⟩
    · exact .inl rfl
    · exact .inl rfl
  | _ => exact .inl rfl

end Attempt

/-- A slot with what goes on around it, and the attempts to register in it. -/
structure Attempts (ι Q R W β : Type) where
  shared : Shared W β
  /-- The attempts that have been begun, by name. -/
  attempt? : ι → Option (Attempt Q R W)

inductive Act (ι Q R W A : Type)
  | begun (i : ι) (p : Program Q R W)
  | turned (i : ι) (linked : Bool)
  | replied (i : ι) (r : R)
  | givenUp (i : ι)
  /-- Something that does not concern the attempts. -/
  | around (m : Move W A)

namespace Act

/-- The attempt that an act is about. -/
def about? : Act ι Q R W A → Option ι
  | begun i _ => some i
  | turned i _ => some i
  | replied i _ => some i
  | givenUp i => some i
  | around _ => none

def move? : Act ι Q R W A → Option (Move W A)
  | around m => some m
  | _ => none

end Act

namespace Attempts

variable {k : Conduct W A β} {x y : Attempts ι Q R W β} {i j : ι} {act : Act ι Q R W A}

def put (x : Attempts ι Q R W β) (i : ι) (a : Attempt Q R W) : Attempts ι Q R W β :=
  { x with attempt? := Function.update x.attempt? i (some a) }

@[simp] theorem shared_put (x : Attempts ι Q R W β) (i : ι) (a : Attempt Q R W) :
    (x.put i a).shared = x.shared := rfl

@[simp] theorem attempt?_put (x : Attempts ι Q R W β) (i : ι) (a : Attempt Q R W) :
    (x.put i a).attempt? i = some a := Function.update_self ..

theorem attempt?_put_of_ne (h : j ≠ i) (x : Attempts ι Q R W β) (a : Attempt Q R W) :
    (x.put i a).attempt? j = x.attempt? j := Function.update_of_ne h ..

/-- What an act does. An attempt is begun under a new name, through an owner of the slot, and goes
on only while there is one. -/
def step (k : Conduct W A β) (x : Attempts ι Q R W β) : Act ι Q R W A → Attempts ι Q R W β
  | .begun i p =>
    match x.attempt? i with
    | none => if x.shared.owners = 0 then x else x.put i (.underWay p)
    | some _ => x
  | .turned i linked =>
    match x.attempt? i with
    | none => x
    | some a =>
      if x.shared.owners = 0 then x
      else
        let (a, observer) := a.turn linked
        match observer with
        | none => x.put i a
        | some w => { x.put i a with shared := x.shared.step k (.registered w) }
  | .replied i r =>
    match x.attempt? i with
    | none => x
    | some a => x.put i (a.reply r)
  | .givenUp i =>
    match x.attempt? i with
    | none => x
    | some a => x.put i a.giveUp
  | .around m => { x with shared := x.shared.step k m }

def run (k : Conduct W A β) (x : Attempts ι Q R W β) (acts : List (Act ι Q R W A)) :
    Attempts ι Q R W β :=
  acts.foldl (step k) x

theorem run_concat (x : Attempts ι Q R W β) (acts : List (Act ι Q R W A))
    (act : Act ι Q R W A) : run k x (acts ++ [act]) = step k (run k x acts) act := by
  simp [run]

/-! ## One attempt -/

/-- What an act does that is about an attempt: it changes this attempt, and it registers an observer
only if the attempt counts as registered from then on. -/
theorem step_about (h : act.about? = some i) :
    step k x act = x ∨
      (∃ a, step k x act = x.put i a ∧
        (x.attempt? i = some .registered → a = .registered)) ∨
      ∃ p w, x.attempt? i = some (.underWay p) ∧
        step k x act = { x.put i .registered with shared := x.shared.step k (.registered w) } := by
  cases act with
  | around m => cases h
  | begun j p =>
    obtain rfl : j = i := Option.some.inj h
    simp only [step]
    cases hAttempt : x.attempt? j with
    | none =>
      by_cases hNone : x.shared.owners = 0
      · exact .inl (if_pos hNone)
      · exact .inr (.inl ⟨_, if_neg hNone, nofun⟩)
    | some a => exact .inl rfl
  | turned j linked =>
    obtain rfl : j = i := Option.some.inj h
    simp only [step]
    cases hAttempt : x.attempt? j with
    | none => exact .inl rfl
    | some a =>
      by_cases hNone : x.shared.owners = 0
      · exact .inl (if_pos hNone)
      · simp only [if_neg hNone]
        rcases a.turn_cases linked with hWaits | ⟨p, w, rfl, hEnds⟩
        · refine .inr (.inl ⟨(a.turn linked).1, by rw [hWaits], fun hBefore => ?_⟩)
          obtain rfl := Option.some.inj hBefore
          rfl
        · exact .inr (.inr ⟨p, w, rfl, by rw [hEnds]⟩)
  | replied j r =>
    obtain rfl : j = i := Option.some.inj h
    simp only [step]
    cases hAttempt : x.attempt? j with
    | none => exact .inl rfl
    | some a =>
      refine .inr (.inl ⟨_, rfl, fun hBefore => ?_⟩)
      obtain rfl := Option.some.inj hBefore
      rfl
  | givenUp j =>
    obtain rfl : j = i := Option.some.inj h
    simp only [step]
    cases hAttempt : x.attempt? j with
    | none => exact .inl rfl
    | some a =>
      refine .inr (.inl ⟨_, rfl, fun hBefore => ?_⟩)
      obtain rfl := Option.some.inj hBefore
      rfl

theorem attempt?_step_of_ne (h : act.about? ≠ some j) :
    (step k x act).attempt? j = x.attempt? j := by
  cases hAbout : act.about? with
  | none =>
    cases act with
    | around m => rfl
    | _ => cases hAbout
  | some i =>
    have hOther : j ≠ i := fun hSame => h (hSame ▸ hAbout)
    rcases step_about (k := k) (x := x) hAbout with hStep | ⟨a, hStep, -⟩ | ⟨p, w, -, hStep⟩
    · rw [hStep]
    · rw [hStep, attempt?_put_of_ne hOther]
    · rw [hStep]
      exact attempt?_put_of_ne hOther x _

theorem registered_step (h : x.attempt? i = some .registered) (act : Act ι Q R W A) :
    (step k x act).attempt? i = some .registered := by
  by_cases hAbout : act.about? = some i
  · rcases step_about (k := k) (x := x) hAbout with hStep | ⟨a, hStep, hKept⟩ | ⟨p, w, hOld, -⟩
    · rw [hStep, h]
    · rw [hStep, attempt?_put, hKept h]
    · rw [h] at hOld
      cases hOld
  · rw [attempt?_step_of_ne hAbout, h]

theorem registered_run (h : x.attempt? i = some .registered) (acts : List (Act ι Q R W A)) :
    (run k x acts).attempt? i = some .registered := by
  induction acts using List.reverseRecOn with
  | nil => exact h
  | append_singleton acts act ih => exact run_concat x acts act ▸ registered_step ih act

/-- An act about an attempt does nothing around the slot, unless the attempt counts as registered
only from then on. -/
theorem shared_step_about (hAbout : act.about? = some i)
    (h : (step k x act).attempt? i = some .registered → x.attempt? i = some .registered) :
    (step k x act).shared = x.shared := by
  rcases step_about (k := k) (x := x) hAbout with hStep | ⟨a, hStep, -⟩ | ⟨p, w, hOld, hStep⟩
  · rw [hStep]
  · rw [hStep, shared_put]
  · rw [hStep] at h
    have hRegistered := h (attempt?_put x i _)
    rw [hOld] at hRegistered
    cases hRegistered

/-- All is the same but one attempt. -/
structure Agree (i : ι) (x y : Attempts ι Q R W β) : Prop where
  shared : x.shared = y.shared
  others : ∀ j, j ≠ i → x.attempt? j = y.attempt? j

theorem Agree.put (h : Agree i x y) (j : ι) (a : Attempt Q R W) :
    Agree i (x.put j a) (y.put j a) where
  shared := h.shared
  others l hOther := by
    by_cases hSame : l = j
    · rw [hSame, attempt?_put, attempt?_put]
    · rw [attempt?_put_of_ne hSame, attempt?_put_of_ne hSame, h.others l hOther]

omit [DecidableEq ι] in
theorem Agree.around (h : Agree i x y) (m : Move W A) :
    Agree i { x with shared := x.shared.step k m } { y with shared := y.shared.step k m } :=
  ⟨congrArg (Shared.step k · m) h.shared, h.others⟩

/-- What does not concern an attempt does the same whatever has become of it. -/
theorem Agree.step (h : Agree i x y) (hAbout : act.about? ≠ some i) :
    Agree i (step k x act) (step k y act) := by
  -- The act finds its attempt the same on both sides, and so takes the same branch.
  have hSame : ∀ j, act.about? = some j → x.attempt? j = y.attempt? j :=
    fun j hj => h.others j fun hEq => hAbout (hEq ▸ hj)
  cases act with
  | begun j p =>
    simp only [Attempts.step, ← hSame j rfl, ← h.shared]
    split
    · split
      · exact h
      · exact h.put j _
    · exact h
  | turned j linked =>
    simp only [Attempts.step, ← hSame j rfl, ← h.shared]
    split
    · exact h
    · rename_i a _
      split
      · exact h
      · cases (a.turn linked).2 with
        | none => exact h.put j _
        | some w => exact ⟨rfl, (h.put j _).others⟩
  | replied j r =>
    simp only [Attempts.step, ← hSame j rfl]
    split
    · exact h
    · exact h.put j _
  | givenUp j =>
    simp only [Attempts.step, ← hSame j rfl]
    split
    · exact h
    · exact h.put j _
  | around m => exact h.around m

/-- An attempt that does not register its observer might as well not have been made. -/
theorem run_without {acts : List (Act ι Q R W A)}
    (h : (run k x acts).attempt? i ≠ some .registered) :
    Agree i (run k x acts) (run k x (acts.filter fun act => act.about? ≠ some i)) := by
  induction acts using List.reverseRecOn with
  | nil => exact ⟨rfl, fun _ _ => rfl⟩
  | append_singleton acts act ih =>
    rw [run_concat] at h ⊢
    -- What is not registered at the end was not before the last act either.
    have hBefore : (run k x acts).attempt? i ≠ some .registered :=
      fun hRegistered => h (registered_step hRegistered act)
    have hAgree := ih hBefore
    rw [List.filter_append]
    by_cases hAbout : act.about? = some i
    · have hNone : [act].filter (fun act => act.about? ≠ some i) = [] := by simp [hAbout]
      rw [hNone, List.append_nil]
      have hSame := shared_step_about hAbout fun hRegistered => absurd hRegistered h
      exact ⟨hSame.trans hAgree.shared, fun j hOther =>
        (attempt?_step_of_ne fun hSame => hOther
          (Option.some.inj (hSame.symm.trans hAbout))).trans (hAgree.others j hOther)⟩
    · have hKept : [act].filter (fun act => act.about? ≠ some i) = [act] := by simp [hAbout]
      rw [hKept, run_concat]
      exact hAgree.step hAbout

/-- If no attempt registers its observer, only what happens around the slot matters. -/
theorem shared_run {acts : List (Act ι Q R W A)}
    (h : ∀ i, (run k x acts).attempt? i = some .registered → x.attempt? i = some .registered) :
    (run k x acts).shared = Shared.run k x.shared (acts.filterMap Act.move?) := by
  induction acts using List.reverseRecOn with
  | nil => rfl
  | append_singleton acts act ih =>
    rw [run_concat] at h ⊢
    have hBefore := ih fun i hRegistered => h i (registered_step hRegistered act)
    rw [List.filterMap_append]
    cases hAbout : act.about? with
    | none =>
      cases act with
      | around m =>
        exact (congrArg (Shared.step k · m) hBefore).trans (Shared.run_concat _ _ m).symm
      | _ => cases hAbout
    | some i =>
      have hNone : [act].filterMap Act.move? = [] := by
        cases act with
        | around m => cases hAbout
        | _ => rfl
      rw [hNone, List.append_nil, ← hBefore]
      exact shared_step_about hAbout fun hRegistered => registered_run (h i hRegistered) acts

/-! ## Without interruption -/

/-- The turns of an attempt with the replies that it gets, which nothing interrupts. -/
def turns (i : ι) (linked : Bool) (trace : List (Q × R)) : List (Act ι Q R W A) :=
  .turned i linked :: trace.flatMap fun t => [.replied i t.2, .turned i linked]

def atOnce (i : ι) (p : Program Q R W) (linked : Bool) (trace : List (Q × R)) :
    List (Act ι Q R W A) :=
  .begun i p :: turns i linked trace

def ended : Except Error W → Attempt Q R W
  | .ok _ => .registered
  | .error e => .failed e

/-- What the result of an attempt makes of the slot. -/
def sharedAfter (k : Conduct W A β) (s : Shared W β) : Except Error W → Shared W β
  | .ok w => s.step k (.registered w)
  | .error _ => s

structure Concluded (k : Conduct W A β) (x : Attempts ι Q R W β) (i : ι) (r : Except Error W)
    (y : Attempts ι Q R W β) : Prop where
  attempt : y.attempt? i = some (ended r)
  shared : y.shared = sharedAfter k x.shared r

theorem put_put (x : Attempts ι Q R W β) (i : ι) (a b : Attempt Q R W) :
    (x.put i a).put i b = x.put i b := by
  simp [put]

theorem step_turned {p : Program Q R W} (h : x.attempt? i = some (.underWay p))
    (hOwned : x.shared.owners ≠ 0) (linked : Bool) :
    step k x (.turned i linked) =
      match p.proceed linked with
      | .done w => { x.put i .registered with shared := x.shared.step k (.registered w) }
      | .fail e => x.put i (.failed e)
      | waiting => x.put i (.underWay waiting) := by
  simp only [step, h, if_neg hOwned, Attempt.turn]
  cases p.proceed linked <;> rfl

theorem run_turns {p : Program Q R W} (h : x.attempt? i = some (.underWay p))
    (hOwned : x.shared.owners ≠ 0) (linked : Bool) (answer : σ → Q → R × σ) (s : σ) :
    Concluded k x i (p.run answer linked s).result
      (run k x (turns i linked (p.run answer linked s).trace)) := by
  induction p generalizing x s with
  | done w =>
    have hEnd : run k x (turns i linked []) =
        { x.put i .registered with shared := x.shared.step k (.registered w) } :=
      step_turned h hOwned linked
    rw [Program.run, hEnd]
    exact ⟨attempt?_put x i _, rfl⟩
  | fail e =>
    have hEnd : run k x (turns i linked []) = x.put i (.failed e) := step_turned h hOwned linked
    rw [Program.run, hEnd]
    exact ⟨attempt?_put x i _, rfl⟩
  | ask q next ih =>
    let r := (answer s q).1
    let z := x.put i (.underWay (next r))
    have hReplied : step k (step k x (.turned i linked)) (.replied i r) = z := by
      have hWaits : step k x (.turned i linked) = x.put i (.underWay (.ask q next)) :=
        step_turned h hOwned linked
      rw [hWaits]
      simp only [step, attempt?_put, put_put]
      rfl
    have hRun : ∀ trace, run k x (turns i linked ((q, r) :: trace)) =
        run k z (turns i linked trace) :=
      fun trace => congrArg (fun z => run k z (turns i linked trace)) hReplied
    have hRest := ih r (x := z) (attempt?_put x i _) hOwned (answer s q).2
    rw [← hRun] at hRest
    exact ⟨hRest.attempt, hRest.shared⟩
  | whetherLinked next ih =>
    -- Looking for the manager takes no act of its own, it is part of the turn.
    let z := x.put i (.underWay (next linked))
    have hTurned : step k x (.turned i linked) = step k z (.turned i linked) := by
      rw [step_turned h hOwned linked, step_turned (attempt?_put x i _) hOwned linked]
      simp only [Program.proceed]
      cases (next linked).proceed linked <;> simp only [put_put, shared_put]
    have hRun : ∀ trace, run k x (turns i linked trace) = run k z (turns i linked trace) :=
      fun trace => congrArg (fun y => run k y (trace.flatMap _)) hTurned
    have hRest := ih linked (x := z) (attempt?_put x i _) hOwned s
    rw [← hRun] at hRest
    exact ⟨hRest.attempt, hRest.shared⟩

/-- An attempt that nothing interrupts runs as its program does: with an observer as the result the
observer is registered, and with an error nothing is done around the slot. -/
theorem run_atOnce (hNew : x.attempt? i = none) (hOwned : x.shared.owners ≠ 0) (p : Program Q R W)
    (linked : Bool) (answer : σ → Q → R × σ) (s : σ) :
    Concluded k x i (p.run answer linked s).result
      (run k x (atOnce i p linked (p.run answer linked s).trace)) := by
  have hBegun : step k x (.begun i p) = x.put i (.underWay p) := by
    simp only [step, hNew, if_neg hOwned]
  have hRun : ∀ trace, run k x (atOnce i p linked trace) =
      run k (x.put i (.underWay p)) (turns i linked trace) :=
    fun trace => congrArg (fun y => run k y (turns i linked trace)) hBegun
  have hRest := run_turns (k := k) (attempt?_put x i (.underWay p)) hOwned linked answer s
  rw [hRun]
  exact ⟨hRest.attempt, hRest.shared⟩

end Attempts

end ModemLink.Observer
