import Mathlib.Data.List.Induction
import ModemLink.Proofs.Registry.Requests

/-!
# What a wait for a request ends with

While somebody waits for a request, things happen to the registry, the time runs out and the wait is
polled, in any order. A wait ends with the first poll that finds something: the outcome of the
request, or that the time is over. A poll that finds both may go by either, so that a request can be
completed and its wait fail for the lack of time (`completed_request_may_time_out`). This is the
only way; a poll between the two always goes by what has happened.

* `Moment`, `State.run`: a wait along everything that happens.
* `poll_eq_some_iff`: what one poll ends with.
* `ends_at_poll`: what a wait ends with, by the poll at which it does.
* `ends_with_outcome`: a wait that is polled in time.
-/

namespace ModemLink.Registry.Wait

variable {H : Type}

/-! ## Waits -/

/-- Something that happens while somebody waits for a request. -/
inductive Moment (H : Type)
  | event (e : Event H)
  /-- The limit is reached. -/
  | expiry
  /-- The wait is polled. If it has the choice, it goes by `choice`. -/
  | poll (choice : Choice)
deriving DecidableEq, Repr

/-- A wait for a request. -/
structure State (H : Type) where
  registry : Registry H
  expired : Bool
  /-- What the wait has ended with, if it has. -/
  result : Option (Except Error (Tracked H))

namespace State

/-- A wait that has just begun. -/
def start (r : Registry H) : State H := ⟨r, false, none⟩

/-- The wait for a request after one more moment. A wait that is over is not polled any more, and
one without a limit never runs out of time. -/
def next (limited : Bool) (id : RequestId) (s : State H) : Moment H → State H
  | .event e => { s with registry := s.registry.apply e }
  | .expiry => { s with expired := s.expired || limited }
  | .poll choice => { s with result := s.result.or (poll s.registry id s.expired choice) }

def run (limited : Bool) (id : RequestId) (s : State H) (moments : List (Moment H)) : State H :=
  moments.foldl (next limited id) s

end State

variable {limited expired : Bool} {id : RequestId} {s : State H} {r : Registry H}
  {choice : Choice} {result : Except Error (Tracked H)} {moments : List (Moment H)}

theorem run_append (first rest : List (Moment H)) :
    s.run limited id (first ++ rest) = (s.run limited id first).run limited id rest :=
  List.foldl_append

theorem expired_next (m : Moment H) :
    (s.next limited id m).expired = true ↔ s.expired = true ∨ limited = true ∧ m = .expiry := by
  cases m <;> simp [State.next]

theorem expired_run :
    (s.run limited id moments).expired = true ↔
      s.expired = true ∨ limited = true ∧ .expiry ∈ moments := by
  induction moments generalizing s with
  | nil => simp [State.run]
  | cons m rest ih =>
    refine ih.trans ?_
    rw [expired_next, List.mem_cons, and_or_left, or_assoc, eq_comm (a := m)]

/-! ## One poll -/

/-- A poll ends with the outcome of the request if there is one and either the time is not over or
it goes by the outcome, and for the time in the other cases in which it is over. -/
theorem poll_eq_some_iff :
    poll r id expired choice = some result ↔
      r.outcome? id = some result ∧ (expired = false ∨ choice = .outcome) ∨
        result = .error .timeout ∧ expired = true ∧ (r.outcome? id = none ∨ choice = .timer) := by
  cases hOutcome : r.outcome? id <;> cases expired <;> cases choice <;>
    simp [poll, hOutcome, eq_comm]

theorem outcome?_ne_timeout : r.outcome? id ≠ some (.error .timeout) := by
  unfold outcome?
  split <;> simp

/-! ## Whole waits -/

theorem result_run_of_some (h : s.result = some result) :
    (s.run limited id moments).result = some result := by
  induction moments generalizing s with
  | nil => exact h
  | cons m rest ih =>
    refine ih ?_
    cases m with
    | event e => exact h
    | expiry => exact h
    | poll choice => simp [State.next, h]

theorem result_next_poll (h : s.result = none) :
    (s.next limited id (.poll choice)).result = poll s.registry id s.expired choice := by
  simp only [State.next, h, Option.none_or]

/-- A wait that has ended did so at one of its polls, by what it found there. -/
theorem ends_at_poll (h : ((State.start r).run limited id moments).result = some result) :
    ∃ before choice after, moments = before ++ .poll choice :: after ∧
      let s := (State.start r).run limited id before
      s.result = none ∧
        (s.registry.outcome? id = some result ∧ (s.expired = false ∨ choice = .outcome) ∨
          result = .error .timeout ∧ limited = true ∧ .expiry ∈ before ∧
            (s.registry.outcome? id = none ∨ choice = .timer)) := by
  -- From the back: either the wait was over before the last moment, or that is the poll.
  induction moments using List.reverseRecOn with
  | nil => cases h
  | append_singleton earlier m ih =>
    cases hEarlier : ((State.start r).run limited id earlier).result with
    | some first =>
      rw [run_append, result_run_of_some hEarlier] at h
      obtain ⟨before, choice, after, rfl, hPoll⟩ := ih (hEarlier.trans h)
      exact ⟨before, choice, after ++ [m], by simp, hPoll⟩
    | none =>
      rw [run_append] at h
      change (((State.start r).run limited id earlier).next limited id m).result = _ at h
      cases m with
      | event e => exact nomatch hEarlier.symm.trans h
      | expiry => exact nomatch hEarlier.symm.trans h
      | poll choice =>
        have hPoll := (result_next_poll hEarlier).symm.trans h
        refine ⟨earlier, choice, [], rfl, hEarlier, ?_⟩
        rcases poll_eq_some_iff.mp hPoll with hOutcome | ⟨rfl, hExpired, hFound⟩
        · exact .inl hOutcome
        · obtain hNever | ⟨hLimited, hExpiry⟩ := expired_run.mp hExpired
          · cases hNever
          · exact .inr ⟨rfl, hLimited, hExpiry, hFound⟩

/-- A wait without a limit never fails for the lack of time. -/
theorem not_timeout_of_unlimited :
    ((State.start r).run false id moments).result ≠ some (.error .timeout) := by
  intro h
  obtain ⟨before, choice, after, -, -, ⟨hOutcome, -⟩ | ⟨-, hLimited, -⟩⟩ := ends_at_poll h
  · exact outcome?_ne_timeout hOutcome
  · cases hLimited

/-- A wait whose polls prefer the outcome fails for the lack of time only if there is none. -/
theorem timeout_of_outcome_first (hFirst : .poll .timer ∉ moments)
    (h : ((State.start r).run limited id moments).result = some (.error .timeout)) :
    ∃ before after, moments = before ++ .poll .outcome :: after ∧ .expiry ∈ before ∧
      ((State.start r).run limited id before).registry.outcome? id = none := by
  obtain ⟨before, choice, after, rfl, -, ⟨hOutcome, -⟩ | ⟨-, -, hExpiry, hFound⟩⟩ :=
    ends_at_poll h
  · exact (outcome?_ne_timeout hOutcome).elim
  · cases choice with
    | timer => simp at hFirst
    | outcome => exact ⟨before, after, rfl, hExpiry, hFound.resolve_right nofun⟩

/-- A wait for a completed request ends with the outcome if it is polled before the time is over,
whatever happens in between. -/
theorem ends_with_outcome (hOpen : s.result = none) (hDone : s.registry.outcome? id = some result)
    (hTime : s.expired = false) (hKept : .event (.dropped id) ∉ moments)
    (hEarly : .expiry ∉ moments) (hPolled : ∃ choice, .poll choice ∈ moments) :
    (s.run limited id moments).result = some result := by
  induction moments generalizing s with
  | nil =>
    obtain ⟨choice, hMem⟩ := hPolled
    cases hMem
  | cons m rest ih =>
    obtain ⟨choice, hMem⟩ := hPolled
    cases m with
    | event e =>
      have hNe : .dropped id ∉ [e] := by
        rintro hDrop
        rw [List.mem_singleton] at hDrop
        exact hKept (hDrop ▸ List.mem_cons_self)
      refine ih hOpen (outcome?_applyAll hDone hNe) hTime (List.not_mem_of_not_mem_cons hKept)
        (List.not_mem_of_not_mem_cons hEarly) ⟨choice, ?_⟩
      exact (List.mem_cons.mp hMem).resolve_left nofun
    | expiry => exact (hEarly List.mem_cons_self).elim
    | poll first =>
      have hPoll : poll s.registry id s.expired first = some result :=
        poll_eq_some_iff.mpr (.inl ⟨hDone, .inl hTime⟩)
      have hNext : (s.next limited id (.poll first)).result = some result :=
        (result_next_poll hOpen).trans hPoll
      exact (result_run_of_some hNext :)

/-- If the modem comes back and the time runs out between two polls, the wait may end either way. -/
theorem completed_request_may_time_out :
    let made : Registry Nat := ((empty : Registry Nat).await .any).1
    let passed : List (Moment Nat) := [.poll .outcome, .event (.added ⟨"/0", 0⟩ "7"), .expiry]
    ((State.start made).run true 0 passed).registry.outcome? 0 = some (.ok ⟨"/0", 0⟩) ∧
      ((State.start made).run true 0 (passed ++ [.poll .outcome])).result =
        some (.ok ⟨"/0", 0⟩) ∧
      ((State.start made).run true 0 (passed ++ [.poll .timer])).result =
        some (.error .timeout) :=
  ⟨rfl, rfl, rfl⟩

end ModemLink.Registry.Wait
