import Mathlib.Data.List.Induction
import ModemLink.Manager.Reset
import ModemLink.Proofs.Program.Ends
import ModemLink.Proofs.Registry.Requests

/-!
# The return of a modem that is reset

A call that resets a modem shares the registry with the tracker and with other callers, who may do
anything between any two of its steps. The manager lives as long as the call.

* `Call`, `run`: a call with the registry, and a course of it among what others do.
* `Looking`, `Requested`: how far a call can be before and after it has made its request.
* `course`: every course is at one of these places.
* `isAtRest_rounds`: turns and replies bring a call to rest.
* `reset_returns_modem`: what the call asks, what it does to the registry and how it ends.
-/

namespace ModemLink.Reset

open Registry (Event)

/-! ## Questions -/

def imeiQuery (path : String) : Bus.Query := .get .modemManager path Bus.Interface.modem3gpp "Imei"

def resetQuery (path : String) : Bus.Query :=
  .call .modemManager path Bus.Interface.modem "Reset" []

/-- The IMEI in a reply. -/
def imeiIn (r : Bus.Reply) : Except Error String :=
  (r.content (.single .string)).mapError fun f => .bus f.standard

/-- Whether a reply says that the modem resets. -/
def resetIn (r : Bus.Reply) : Except Error Unit := (r.content .nothing).mapError .bus

/-! ## Calls -/

/-- A call that resets a modem, with the registry. -/
structure Call where
  modems : Modems
  stage : Reset
  /-- What the call has asked. -/
  asked : List Bus.Query
  /-- The replies to it. -/
  told : List Bus.Reply

/-- Something that happens during a call: others do something with the registry, the call goes on or
gets a reply, or its time is over. -/
inductive Move
  | around (e : Event Nat)
  | turn
  | replied (r : Bus.Reply)
  | expired (choice : Registry.Wait.Choice)

def Move.around? : Move → Option (Event Nat)
  | around e => some e
  | _ => none

/-- What others do with the registry. -/
def arounds (moves : List Move) : List (Event Nat) := moves.filterMap Move.around?

theorem arounds_append (first rest : List Move) :
    arounds (first ++ rest) = arounds first ++ arounds rest := List.filterMap_append

theorem arounds_append_of_own {x : Move} (own : x.around? = none) (first rest : List Move) :
    arounds (first ++ x :: rest) = arounds first ++ arounds rest := by
  rw [arounds_append, arounds, arounds, arounds, List.filterMap_cons_none own]

theorem arounds_concat (moves : List Move) (x : Move) :
    arounds (moves ++ [x]) = arounds moves ++ x.around?.toList := by
  rw [arounds_append, arounds, arounds, List.filterMap_cons]
  cases x.around? <;> rfl

namespace Call

def move (path : String) (c : Call) : Move → Call
  | .around e => { c with modems := c.modems.apply e }
  | .turn =>
    if c.stage.question?.isSome then c
    else
      let (modems, stage) := c.stage.step path true c.modems
      { c with modems, stage, asked := c.asked ++ stage.question?.toList }
  | .replied r =>
    if c.stage.question?.isSome then
      { c with stage := c.stage.reply r, told := c.told ++ [r] }
    else c
  | .expired choice =>
    let (modems, stage) := c.stage.expire choice c.modems
    { c with modems, stage }

/-- Whether the call can only wait, for the return of the modem or because it has ended. -/
def isAtRest (c : Call) : Bool := c.stage.isBlocked c.modems

/-- The call has ended with a result, or because its time was over in some of the moves. -/
def EndsInTime (c : Call) (moves : List Move) (result : Except Error (Tracked Nat)) : Prop :=
  c.stage = .ended result ∨
    (∃ choice, .expired choice ∈ moves) ∧ c.stage = .ended (.error .timeout)

end Call

/-- A call to reset the modem at a path, among what else happens. -/
def run (path : String) (m : Modems) (moves : List Move) : Call :=
  moves.foldl (Call.move path) ⟨m, .begin m path, [], []⟩

theorem run_concat (path : String) (m : Modems) (moves : List Move) (x : Move) :
    run path m (moves ++ [x]) = (run path m moves).move path x := by
  rw [run, List.foldl_append]
  rfl

/-- A turn in which the call asks nothing. -/
theorem move_turn_of_step {path : String} {c : Call} {modems : Modems} {stage : Reset}
    (hFree : c.stage.question? = none)
    (hStep : c.stage.step path true c.modems = (modems, stage))
    (hNext : stage.question? = none) : c.move path .turn = { c with modems, stage } := by
  simp only [Call.move, hFree, hStep, hNext, Option.toList_none, List.append_nil]
  rfl

/-! ## Before the request -/

/-- What the call asks before it knows the identity of the modem. -/
def lookups (m : Modems) (path : String) : List Bus.Query :=
  if (m.identityOf? path).isSome then [] else [imeiQuery path]

theorem lookups_of_unknown {m : Modems} {path : String} (h : m.identityOf? path = none) :
    lookups m path = [imeiQuery path] := by
  rw [lookups, h]
  rfl

/-- The identity that the registry has, or else the one that the first reply tells. -/
def identity? (m : Modems) (path : String) (told : List Bus.Reply) :
    Option (Except Error String) :=
  match m.identityOf? path with
  | some identity => some (.ok identity)
  | none => told.head?.map imeiIn

/-- Why a modem is not reset. -/
def refusal? (path : String) : Except Error String → Option Error
  | .error e => some e
  | .ok identity => if identity.isEmpty then some (.unidentifiedModem path) else none

/-- A call that has not made a request, with any registry. -/
inductive Looking (path : String) (m : Modems) : Call → Prop
  | unasked (r : Modems) (unknown : m.identityOf? path = none) :
      Looking path m ⟨r, identifying (Modem.imei path), [], []⟩
  | asking (r : Modems) (unknown : m.identityOf? path = none) :
      Looking path m
        ⟨r, identifying (.ask (imeiQuery path) fun r => .ofExcept (imeiIn r)), lookups m path, []⟩
  | found (r : Modems) {told : List Bus.Reply} {x : Except Error String}
      (identity : identity? m path told = some x) (all : told.length = (lookups m path).length) :
      Looking path m ⟨r, identifying (.ofExcept x), lookups m path, told⟩
  | refused (r : Modems) {told : List Bus.Reply} {x : Except Error String} {e : Error}
      (identity : identity? m path told = some x) (all : told.length = (lookups m path).length)
      (refusal : refusal? path x = some e) :
      Looking path m ⟨r, ended (.error e), lookups m path, told⟩

theorem looking_start (path : String) (m : Modems) : Looking path m ⟨m, .begin m path, [], []⟩ := by
  cases hKnown : m.identityOf? path with
  | none =>
    rw [begin, hKnown]
    exact .unasked m hKnown
  | some identity =>
    have hFound : Looking path m ⟨m, identifying (.ofExcept (.ok identity)), lookups m path, []⟩ :=
      .found m (by rw [identity?, hKnown]) (by simp [lookups, hKnown])
    rw [lookups, hKnown] at hFound
    rw [begin, hKnown]
    exact hFound

/-- A call that knows a proper identity. -/
def foundCall (m : Modems) (path : String) (r : Modems) (identity : String)
    (told : List Bus.Reply) : Call :=
  ⟨r, identifying (.done identity), lookups m path, told⟩

/-- Before its request a call changes the registry only by what others do, and it makes the request
only when it knows a proper identity. -/
theorem Looking.move {path : String} {m : Modems} {c : Call} (h : Looking path m c) (x : Move) :
    (Looking path m (c.move path x) ∧
        (c.move path x).modems = c.modems.applyAll x.around?.toList) ∨
      ∃ identity told, x = .turn ∧ identity ≠ "" ∧
        identity? m path told = some (.ok identity) ∧
        told.length = (lookups m path).length ∧ c = foundCall m path c.modems identity told := by
  cases x with
  | around e =>
    refine .inl ⟨?_, rfl⟩
    cases h with
    | unasked r unknown => exact .unasked _ unknown
    | asking r unknown => exact .asking _ unknown
    | found r identity all => exact .found _ identity all
    | refused r identity all refusal => exact .refused _ identity all refusal
  | turn =>
    cases h with
    | unasked r unknown =>
      have hAsking : Looking path m ⟨r, _, lookups m path, []⟩ := .asking r unknown
      rw [lookups_of_unknown unknown] at hAsking
      exact .inl ⟨hAsking, rfl⟩
    | asking r unknown => exact .inl ⟨.asking r unknown, rfl⟩
    | @found r told x identity all =>
      cases x with
      | error e =>
        rw [move_turn_of_step rfl rfl rfl]
        exact .inl ⟨.refused r identity all rfl, rfl⟩
      | ok found =>
        cases hEmpty : found.isEmpty with
        | true =>
          have hStep : step path true r (identifying (.ofExcept (.ok found))) =
              (r, ended (.error (.unidentifiedModem path))) := by
            simp only [step, Program.ofExcept, Program.proceed, onIdentity, hEmpty]
            rfl
          rw [move_turn_of_step rfl hStep rfl]
          exact .inl ⟨.refused r identity all (by rw [refusal?, if_pos hEmpty]), rfl⟩
        | false =>
          refine .inr ⟨found, told, rfl, ?_, identity, all, rfl⟩
          rintro rfl
          cases hEmpty
    | refused r identity all refusal =>
      rw [move_turn_of_step rfl rfl rfl]
      exact .inl ⟨.refused r identity all refusal, rfl⟩
  | replied reply =>
    refine .inl ?_
    cases h with
    | unasked r unknown => exact ⟨.unasked r unknown, rfl⟩
    | asking r unknown =>
      refine ⟨.found r ?_ ?_, rfl⟩
      · rw [identity?, unknown]
        rfl
      · rw [lookups_of_unknown unknown]
        rfl
    | @found r told x identity all => cases x <;> exact ⟨.found r identity all, rfl⟩
    | refused r identity all refusal => exact ⟨.refused r identity all refusal, rfl⟩
  | expired choice =>
    refine .inl ?_
    cases h with
    | unasked r unknown => exact ⟨.unasked r unknown, rfl⟩
    | asking r unknown => exact ⟨.asking r unknown, rfl⟩
    | found r identity all => exact ⟨.found r identity all, rfl⟩
    | refused r identity all refusal => exact ⟨.refused r identity all refusal, rfl⟩

/-! ## After the request -/

/-- The registry with the request of the call. -/
def made (start : Modems) (identity : String) : Modems := start.apply (.requested (.imei identity))

/-- Why a call that has made its request ends, and with which result: the modem does not reset, the
request has an outcome, or the time is over. -/
inductive Reason (start : Modems) (identity : String) (mid : List Move) (last : Move)
    (r : Bus.Reply) : Except Error (Tracked Nat) → Prop
  | failed {e : Error} (told : resetIn r = .error e) (turn : last = .turn) :
      Reason start identity mid last r (.error e)
  | outcome {result : Except Error (Tracked Nat)} (told : resetIn r = .ok ())
      (came : ((made start identity).applyAll (arounds mid)).outcome? start.futures.length =
        some result) :
      Reason start identity mid last r result
  | timeout {choice : Registry.Wait.Choice} (told : resetIn r = .ok ())
      (expired : last = .expired choice) :
      Reason start identity mid last r (.error .timeout)

/-- A call that has made its request in a registry, for a modem with an identity. -/
inductive Requested (path : String) (start : Modems) (identity : String) (asked : List Bus.Query)
    (told : List Bus.Reply) (after : List Move) : Call → Prop
  | unasked :
      Requested path start identity asked told after
        ⟨(made start identity).applyAll (arounds after),
          resetting start.futures.length (Modem.reset path), asked, told⟩
  | asking :
      Requested path start identity asked told after
        ⟨(made start identity).applyAll (arounds after),
          resetting start.futures.length
            (.ask (resetQuery path) fun r => .ofExcept (resetIn r)),
          asked ++ [resetQuery path], told⟩
  | replied (r : Bus.Reply) :
      Requested path start identity asked told after
        ⟨(made start identity).applyAll (arounds after),
          resetting start.futures.length (.ofExcept (resetIn r)),
          asked ++ [resetQuery path], told ++ [r]⟩
  | waiting (r : Bus.Reply) (ok : resetIn r = .ok ()) :
      Requested path start identity asked told after
        ⟨(made start identity).applyAll (arounds after), waiting start.futures.length,
          asked ++ [resetQuery path], told ++ [r]⟩
  | ended (r : Bus.Reply) {mid rest : List Move} {last : Move}
      {result : Except Error (Tracked Nat)} (split : after = mid ++ last :: rest)
      (own : last.around? = none) (reason : Reason start identity mid last r result) :
      Requested path start identity asked told after
        ⟨(made start identity).applyAll
            (arounds mid ++ .dropped start.futures.length :: arounds rest),
          ended result, asked ++ [resetQuery path], told ++ [r]⟩

theorem step_waiting (path : String) (linked : Bool) (m : Modems) (request : Registry.RequestId) :
    step path linked m (waiting request) =
      match m.outcome? request with
      | some result => (m.abandon request, ended result)
      | none => (m, waiting request) := by
  have hPoll : Registry.Wait.poll m request false .outcome = m.outcome? request := by
    unfold Registry.Wait.poll
    cases m.outcome? request <;> rfl
  cases hOutcome : m.outcome? request <;> simp only [step, onReturn, hPoll, hOutcome]

theorem poll_of_expired (r : Modems) (id : Registry.RequestId) (choice : Registry.Wait.Choice) :
    ∃ result, Registry.Wait.poll r id true choice = some result ∧
      (r.outcome? id = some result ∨ result = .error .timeout) := by
  unfold Registry.Wait.poll
  cases r.outcome? id with
  | none => exact ⟨_, rfl, .inr rfl⟩
  | some result =>
    cases choice with
    | outcome => exact ⟨result, rfl, .inl rfl⟩
    | timer => exact ⟨_, rfl, .inr rfl⟩

namespace Requested

variable {path identity : String} {start : Modems} {asked : List Bus.Query}
  {told : List Bus.Reply} {after : List Move} {c : Call}

theorem stay {x : Move} (h : Requested path start identity asked told after c)
    (own : x.around? = none) : Requested path start identity asked told (after ++ [x]) c := by
  have hSame : ∀ moves, arounds moves = arounds (moves ++ [x]) := by
    intro moves
    rw [arounds_concat, own]
    exact (List.append_nil _).symm
  cases h with
  | unasked => rw [hSame]; exact .unasked
  | asking => rw [hSame]; exact .asking
  | replied r => rw [hSame]; exact .replied r
  | waiting r ok => rw [hSame]; exact .waiting r ok
  | @ended r mid rest last result split own' reason =>
    rw [hSame rest]
    exact .ended r (by rw [split, List.append_assoc, List.cons_append]) own' reason

theorem around (h : Requested path start identity asked told after c) (e : Event Nat) :
    Requested path start identity asked told (after ++ [.around e])
      { c with modems := c.modems.apply e } := by
  have hMore : ∀ moves, arounds (moves ++ [.around e]) = arounds moves ++ [e] :=
    fun moves => arounds_concat moves (.around e)
  have hApply : ((made start identity).applyAll (arounds after)).apply e =
      (made start identity).applyAll (arounds (after ++ [.around e])) := by
    rw [hMore, Registry.applyAll_concat]
  cases h with
  | unasked => rw [hApply]; exact .unasked
  | asking => rw [hApply]; exact .asking
  | replied r => rw [hApply]; exact .replied r
  | waiting r ok => rw [hApply]; exact .waiting r ok
  | @ended r mid rest last result split own reason =>
    rw [← Registry.applyAll_concat, List.append_assoc, List.cons_append, ← hMore]
    exact .ended r (by rw [split, List.append_assoc, List.cons_append]) own reason

/-- The call ends, and nobody waits for its request any more. -/
theorem finish {r : Bus.Reply} {last : Move} {result : Except Error (Tracked Nat)}
    (own : last.around? = none) (reason : Reason start identity after last r result) :
    Requested path start identity asked told (after ++ [last])
      ⟨((made start identity).applyAll (arounds after)).abandon start.futures.length,
        .ended result, asked ++ [resetQuery path], told ++ [r]⟩ := by
  have hEnded : Requested path start identity asked told (after ++ [last]) _ :=
    .ended r rfl own reason
  rwa [show arounds [] = [] from rfl, Registry.applyAll_concat] at hEnded

theorem turn (h : Requested path start identity asked told after c) :
    Requested path start identity asked told (after ++ [.turn]) (c.move path .turn) := by
  cases h with
  | unasked => exact asking.stay rfl
  | asking => exact asking.stay rfl
  | replied r =>
    cases hReply : resetIn r with
    | ok u =>
      rw [move_turn_of_step rfl rfl rfl]
      exact (waiting r hReply).stay rfl
    | error e =>
      rw [move_turn_of_step rfl rfl rfl]
      exact finish rfl (.failed hReply rfl)
  | waiting r ok =>
    cases hCame : ((made start identity).applyAll (arounds after)).outcome?
        start.futures.length with
    | none =>
      rw [move_turn_of_step rfl (by rw [step_waiting, hCame]) rfl]
      exact (waiting r ok).stay rfl
    | some result =>
      rw [move_turn_of_step rfl (by rw [step_waiting, hCame]) rfl]
      exact finish rfl (.outcome ok hCame)
  | ended r split own reason =>
    rw [move_turn_of_step rfl rfl rfl]
    exact (ended r split own reason).stay rfl

theorem replied_to (h : Requested path start identity asked told after c) (reply : Bus.Reply) :
    Requested path start identity asked told (after ++ [.replied reply])
      (c.move path (.replied reply)) := by
  cases h with
  | unasked => exact unasked.stay rfl
  | asking => exact (replied reply).stay rfl
  | replied r =>
    have hFree : (resetting start.futures.length (.ofExcept (resetIn r))).question? = none := by
      cases resetIn r <;> rfl
    simp only [Call.move, hFree]
    exact (replied r).stay rfl
  | waiting r ok => exact (waiting r ok).stay rfl
  | ended r split own reason => exact (ended r split own reason).stay rfl

theorem expired (h : Requested path start identity asked told after c)
    (choice : Registry.Wait.Choice) :
    Requested path start identity asked told (after ++ [.expired choice])
      (c.move path (.expired choice)) := by
  cases h with
  | unasked => exact unasked.stay rfl
  | asking => exact asking.stay rfl
  | replied r => exact (replied r).stay rfl
  | waiting r ok =>
    obtain ⟨result, hPoll, hResult⟩ :=
      poll_of_expired ((made start identity).applyAll (arounds after)) start.futures.length choice
    have hReason : Reason start identity after (.expired choice) r result := by
      rcases hResult with hCame | rfl
      · exact .outcome ok hCame
      · exact .timeout ok rfl
    simp only [Call.move, expire, hPoll]
    exact finish rfl hReason
  | ended r split own reason => exact (ended r split own reason).stay rfl

theorem move (h : Requested path start identity asked told after c) (x : Move) :
    Requested path start identity asked told (after ++ [x]) (c.move path x) := by
  cases x with
  | around e => exact h.around e
  | turn => exact h.turn
  | replied reply => exact h.replied_to reply
  | expired choice => exact h.expired choice

end Requested

/-! ## Courses -/

theorem move_foundCall {identity : String} (hProper : identity ≠ "") (m r : Modems) (path : String)
    (told : List Bus.Reply) :
    (foundCall m path r identity told).move path .turn =
      ⟨made r identity, resetting r.futures.length (Modem.reset path), lookups m path, told⟩ := by
  have hNotEmpty : identity.isEmpty = false :=
    Bool.eq_false_iff.mpr fun h => hProper (String.isEmpty_iff.mp h)
  have hStep : step path true r (identifying (.done identity)) =
      (made r identity, resetting r.futures.length (Modem.reset path)) := by
    simp only [step, Program.proceed, onIdentity, hNotEmpty, made, Registry.apply,
      ← Registry.await_snd r (.imei identity)]
    rfl
  exact move_turn_of_step rfl hStep rfl

/-- After some moves the call knows the proper identity of the modem, and has asked nothing else. -/
structure Found (path : String) (m : Modems) (before : List Move) (identity : String)
    (told : List Bus.Reply) : Prop where
  proper : identity ≠ ""
  known : identity? m path told = some (.ok identity)
  all : told.length = (lookups m path).length
  call : run path m before = foundCall m path (m.applyAll (arounds before)) identity told

/-- The call makes its request in the turn after some moves, in the registry as others have left it
and before it asks for the reset. -/
structure RequestsAfter (path : String) (m : Modems) (before : List Move) (identity : String) :
    Prop where
  asked_before : (run path m before).asked = lookups m path
  modems_before : (run path m before).modems = m.applyAll (arounds before)
  asked : (run path m (before ++ [.turn])).asked = lookups m path
  modems : (run path m (before ++ [.turn])).modems = made (m.applyAll (arounds before)) identity

theorem Found.requestsAfter {path : String} {m : Modems} {before : List Move} {identity : String}
    {told : List Bus.Reply} (h : Found path m before identity told) :
    RequestsAfter path m before identity := by
  have hTurn : run path m (before ++ [.turn]) =
      ⟨made (m.applyAll (arounds before)) identity,
        resetting (m.applyAll (arounds before)).futures.length (Modem.reset path),
        lookups m path, told⟩ := by
    rw [run_concat, h.call, move_foundCall h.proper]
  exact ⟨by rw [h.call]; rfl, by rw [h.call]; rfl, by rw [hTurn], by rw [hTurn]⟩

/-- Every call is at a place before its request, where the registry is as if there were no call, or
at one after it. -/
theorem course (path : String) (m : Modems) (moves : List Move) :
    (Looking path m (run path m moves) ∧
        (run path m moves).modems = m.applyAll (arounds moves)) ∨
      ∃ before after identity told, moves = before ++ .turn :: after ∧
        Found path m before identity told ∧
        Requested path (m.applyAll (arounds before)) identity (lookups m path) told after
          (run path m moves) := by
  induction moves using List.reverseRecOn with
  | nil => exact .inl ⟨looking_start path m, rfl⟩
  | append_singleton moves x ih =>
    rw [run_concat]
    rcases ih with ⟨hLooking, hModems⟩ | ⟨before, after, identity, told, rfl, found, hRequested⟩
    · rcases hLooking.move x with ⟨hNext, hSame⟩ |
          ⟨identity, told, rfl, hProper, hKnown, hAll, hCall⟩
      · refine .inl ⟨hNext, ?_⟩
        rw [hSame, hModems, arounds_concat, Registry.applyAll_append]
      · rw [hModems] at hCall
        refine .inr ⟨moves, [], identity, told, rfl, ⟨hProper, hKnown, hAll, hCall⟩, ?_⟩
        rw [hCall, move_foundCall hProper]
        exact .unasked
    · refine .inr ⟨before, after ++ [x], identity, told, by simp, found, hRequested.move x⟩

/-! ## Coming to rest -/

/-- The call needs so many rounds at most, each a turn and a reply, until it can only wait. -/
def Nearing (n : Nat) : Reset → Prop
  | identifying p => ∃ k, Program.Ends (fun _ => True) p k ∧ k + 4 ≤ n
  | resetting _ p => ∃ k, Program.Ends (fun _ => True) p k ∧ k + 2 ≤ n
  | waiting _ => 1 ≤ n
  | ended _ => True

theorem nearing_of_looking {path : String} {m : Modems} {c : Call} (h : Looking path m c) :
    Nearing 5 c.stage := by
  cases h with
  | unasked r unknown => exact ⟨1, Program.ends_property _ _ _ _, Nat.le_refl 5⟩
  | asking r unknown => exact ⟨1, fun _ => Program.ends_ofExcept _, Nat.le_refl 5⟩
  | found r identity all => exact ⟨0, Program.ends_ofExcept _, by omega⟩
  | refused r identity all refusal => exact trivial

theorem nearing_of_requested {path identity : String} {start : Modems} {asked : List Bus.Query}
    {told : List Bus.Reply} {after : List Move} {c : Call}
    (h : Requested path start identity asked told after c) : Nearing 5 c.stage := by
  cases h with
  | unasked => exact ⟨1, Program.ends_command _ _ _ _ _ _, by omega⟩
  | asking => exact ⟨1, fun _ => Program.ends_ofExcept _, by omega⟩
  | replied r => exact ⟨0, Program.ends_ofExcept _, by omega⟩
  | waiting r ok => exact Nat.le_add_left 1 4
  | ended r split own reason => exact trivial

theorem nearing_run (path : String) (m : Modems) (moves : List Move) :
    Nearing 5 (run path m moves).stage := by
  rcases course path m moves with ⟨hLooking, -⟩ | ⟨before, after, identity, told, -, -, hRequested⟩
  · exact nearing_of_looking hLooking
  · exact nearing_of_requested hRequested

theorem Nearing.isAtRest {c : Call} (h : Nearing 0 c.stage) : c.isAtRest = true := by
  obtain ⟨modems, stage, asked, told⟩ := c
  cases stage with
  | identifying p =>
    obtain ⟨k, -, hLe⟩ := h
    omega
  | resetting request p =>
    obtain ⟨k, -, hLe⟩ := h
    omega
  | waiting request => exact absurd h (Nat.not_succ_le_zero 0)
  | ended result => rfl

/-- A turn in which the call waits for a reply changes nothing, so that every turn is a step. -/
theorem move_turn (path : String) (c : Call) :
    ((c.move path .turn).modems, (c.move path .turn).stage) = c.stage.step path true c.modems := by
  obtain ⟨modems, stage, asked, told⟩ := c
  cases hAsks : stage.question? with
  | none => simp only [Call.move, hAsks]; rfl
  | some q =>
    have hSame : stage.step path true modems = (modems, stage) := by
      unfold question? at hAsks
      split at hAsks
      · rfl
      · rfl
      · cases hAsks
    simp only [Call.move, hAsks, hSame]
    rfl

theorem move_replied (path : String) (c : Call) (r : Bus.Reply) :
    ((c.move path (.replied r)).modems, (c.move path (.replied r)).stage) =
      (c.modems, c.stage.reply r) := by
  obtain ⟨modems, stage, asked, told⟩ := c
  cases hAsks : stage.question? with
  | some q => simp only [Call.move, hAsks]; rfl
  | none =>
    have hSame : stage.reply r = stage := by
      unfold reply
      split
      · cases hAsks
      · cases hAsks
      · rfl
    simp only [Call.move, hAsks, hSame]
    rfl

theorem move_round (path : String) (c : Call) (r : Bus.Reply) :
    ((c.move path .turn).move path (.replied r)).modems = (c.stage.step path true c.modems).1 ∧
      ((c.move path .turn).move path (.replied r)).stage =
        (c.stage.step path true c.modems).2.reply r := by
  have hReply := move_replied path (c.move path .turn) r
  rw [← move_turn path c]
  exact ⟨(Prod.mk.inj hReply).1, (Prod.mk.inj hReply).2⟩

/-- With a turn and a reply the call comes nearer to rest. -/
theorem Nearing.round {c : Call} {n : Nat} (h : Nearing (n + 1) c.stage) (path : String)
    (r : Bus.Reply) :
    ((c.move path .turn).move path (.replied r)).isAtRest = true ∨
      Nearing n ((c.move path .turn).move path (.replied r)).stage := by
  obtain ⟨hModems, hStage⟩ := move_round path c r
  rw [Call.isAtRest, hModems, hStage]
  cases hNow : c.stage with
  | identifying p =>
    rw [hNow] at h
    obtain ⟨k, hEnds, hLe⟩ := h
    have hProceed := Program.ends_proceed hEnds true
    rcases p.proceed_cases true with ⟨identity, hp⟩ | ⟨e, hp⟩ | ⟨q, next, hp⟩
    · simp only [step, hp, onIdentity]
      cases identity.isEmpty with
      | true => exact .inl rfl
      | false => exact .inr ⟨1, Program.ends_command _ _ _ _ _ _, by omega⟩
    · simp only [step, hp]
      exact .inl rfl
    · simp only [step, hp]
      rw [hp] at hProceed
      cases k with
      | zero => exact hProceed.elim
      | succ k => exact .inr ⟨k, hProceed r, by omega⟩
  | resetting request p =>
    rw [hNow] at h
    obtain ⟨k, hEnds, hLe⟩ := h
    have hProceed := Program.ends_proceed hEnds true
    rcases p.proceed_cases true with ⟨u, hp⟩ | ⟨e, hp⟩ | ⟨q, next, hp⟩
    · simp only [step, hp]
      exact .inr (show 1 ≤ n by omega)
    · simp only [step, hp]
      exact .inl rfl
    · simp only [step, hp]
      rw [hp] at hProceed
      cases k with
      | zero => exact hProceed.elim
      | succ k => exact .inr ⟨k, hProceed r, by omega⟩
  | waiting request =>
    rw [step_waiting]
    cases hCame : c.modems.outcome? request with
    | some result => exact .inl rfl
    | none => exact .inl (by simp [reply, isBlocked, hCame])
  | ended result => exact .inl rfl

/-- Turns, each with a reply to the question that is asked in it. -/
def rounds (rs : List Bus.Reply) : List Move := rs.flatMap fun r => [.turn, .replied r]

theorem isAtRest_round {c : Call} (h : c.isAtRest = true) (path : String) (r : Bus.Reply) :
    ((c.move path .turn).move path (.replied r)).isAtRest = true := by
  obtain ⟨hModems, hStage⟩ := move_round path c r
  rw [Call.isAtRest, hModems, hStage]
  unfold Call.isAtRest at h
  cases hNow : c.stage with
  | identifying p =>
    rw [hNow] at h
    cases h
  | resetting request p =>
    rw [hNow] at h
    cases h
  | waiting request =>
    rw [hNow] at h
    have hNone : c.modems.outcome? request = none := by simpa [isBlocked] using h
    simp [step_waiting, hNone, reply, isBlocked]
  | ended result => rfl

theorem isAtRest_rounds {c : Call} {n : Nat} (path : String) (rs : List Bus.Reply)
    (h : c.isAtRest = true ∨ Nearing n c.stage) (hLen : n ≤ rs.length) :
    ((rounds rs).foldl (Call.move path) c).isAtRest = true := by
  induction rs generalizing c n with
  | nil =>
    rcases h with hRest | hNear
    · exact hRest
    · obtain rfl : n = 0 := Nat.le_zero.mp hLen
      exact hNear.isAtRest
  | cons r rs ih =>
    rcases h with hRest | hNear
    · exact ih (n := 0) (.inl (isAtRest_round hRest path r)) (Nat.zero_le _)
    · cases n with
      | zero => exact ih (n := 0) (.inl (isAtRest_round hNear.isAtRest path r)) (Nat.zero_le _)
      | succ n => exact ih (hNear.round path r) (Nat.le_of_succ_le_succ hLen)

/-! ## Ends -/

theorem identity?_append {m : Modems} {path : String} {told : List Bus.Reply}
    {x : Except Error String} (h : identity? m path told = some x) (more : List Bus.Reply) :
    identity? m path (told ++ more) = some x := by
  unfold identity? at h ⊢
  split at h
  · exact h
  · cases told with
    | nil => cases h
    | cons r rest => exact h

theorem refusal?_eq_none {path identity : String} (h : identity ≠ "") :
    refusal? path (.ok identity) = none := by
  rw [refusal?, if_neg fun hEmpty => h (String.isEmpty_iff.mp hEmpty)]

/-- A call that has not made its request and knows whether the modem has an identity has asked all
that it asks before. -/
theorem Looking.of_identity? {path : String} {m : Modems} {c : Call} {x : Except Error String}
    (h : Looking path m c) (hKnown : identity? m path c.told = some x) :
    c.asked = lookups m path ∧ (c.isAtRest = true → ∃ e, refusal? path x = some e ∧
      c.stage = .ended (.error e)) := by
  cases h with
  | unasked r unknown =>
    rw [identity?, unknown] at hKnown
    cases hKnown
  | asking r unknown =>
    rw [identity?, unknown] at hKnown
    cases hKnown
  | found r identity all =>
    refine ⟨rfl, fun hRest => ?_⟩
    cases hRest
  | @refused r told y e identity all refusal =>
    obtain rfl : y = x := Option.some.inj (identity.symm.trans hKnown)
    exact ⟨rfl, fun _ => ⟨e, refusal, rfl⟩⟩

theorem Looking.asked_prefix {path : String} {m : Modems} {c : Call} (h : Looking path m c) :
    c.asked <+: lookups m path ++ [resetQuery path] := by
  cases h with
  | unasked r unknown => exact List.nil_prefix
  | asking r unknown => exact List.prefix_append _ _
  | found r identity all => exact List.prefix_append _ _
  | refused r identity all refusal => exact List.prefix_append _ _

theorem waits_made (start : Modems) (identity : String) :
    (made start identity).Waits start.futures.length (.imei identity) :=
  Registry.waits_await start (.imei identity)

theorem exists_split_of_arounds {moves : List Move} {first rest : List (Event Nat)} {e : Event Nat}
    (h : arounds moves = first ++ e :: rest) :
    ∃ before after, moves = before ++ .around e :: after ∧ arounds before = first := by
  obtain ⟨u, v, rfl, hFirst, hRest⟩ := List.filterMap_eq_append_iff.mp h
  obtain ⟨w, x, after, rfl, hNone, hx, -⟩ := List.filterMap_eq_cons_iff.mp hRest
  refine ⟨u ++ w, after, ?_, ?_⟩
  · cases x with
    | around d =>
      obtain rfl : d = e := Option.some.inj hx
      rw [List.append_assoc]
    | _ => cases hx
  · rw [← hFirst, arounds_append, arounds, arounds, List.filterMap_eq_nil_iff.mpr hNone,
      List.append_nil]

namespace Requested

variable {path identity : String} {start : Modems} {asked : List Bus.Query}
  {told : List Bus.Reply} {after : List Move} {c : Call} {r : Bus.Reply}

theorem asked_prefix (h : Requested path start identity asked told after c) :
    c.asked <+: asked ++ [resetQuery path] := by
  cases h with
  | unasked => exact List.prefix_append _ _
  | asking => exact List.prefix_refl _
  | replied r => exact List.prefix_refl _
  | waiting r ok => exact List.prefix_refl _
  | ended r split own reason => exact List.prefix_refl _

theorem told_eq (h : Requested path start identity asked told after c) :
    ∃ more, c.told = told ++ more := by
  cases h with
  | unasked => exact ⟨[], (List.append_nil told).symm⟩
  | asking => exact ⟨[], (List.append_nil told).symm⟩
  | replied r => exact ⟨[r], rfl⟩
  | waiting r ok => exact ⟨[r], rfl⟩
  | ended r split own reason => exact ⟨[r], rfl⟩

theorem of_isAtRest (h : Requested path start identity asked told after c)
    (hRest : c.isAtRest = true) :
    c.asked = asked ++ [resetQuery path] ∧ ∃ r, c.told = told ++ [r] := by
  cases h with
  | unasked => cases hRest
  | asking => cases hRest
  | replied r => cases hRest
  | waiting r ok => exact ⟨rfl, r, rfl⟩
  | ended r split own reason => exact ⟨rfl, r, rfl⟩

theorem known_eq (h : Requested path start identity asked told after c) :
    c.modems.known = (start.applyAll (arounds after)).known := by
  have hMade : (made start identity).known = start.known := Registry.known_await start _
  have hAll : ∀ events, ((made start identity).applyAll events).known =
      (start.applyAll events).known := Registry.known_applyAll_congr hMade
  cases h with
  | unasked => exact hAll _
  | asking => exact hAll _
  | replied r => exact hAll _
  | waiting r ok => exact hAll _
  | @ended r mid rest last result split own reason =>
    have hDropped : (((made start identity).applyAll (arounds mid)).apply
        (.dropped start.futures.length)).known = (start.applyAll (arounds mid)).known :=
      hAll (arounds mid)
    rw [split, arounds_append_of_own own, Registry.applyAll_append,
      Registry.applyAll_append]
    exact Registry.known_applyAll_congr hDropped (arounds rest)

/-- If the modem resets and something settles the request, the call ends with that, or because its
time is over. -/
theorem settled (h : Requested path start identity asked told after c) (hRest : c.isAtRest = true)
    (hTold : c.told = told ++ [r]) (hOk : resetIn r = .ok ())
    (hKept : .dropped start.futures.length ∉ arounds after) {mid rest : List Move} {e : Event Nat}
    (hSplit : after = mid ++ .around e :: rest)
    (hQuiet : Registry.Quiet (.imei identity) (made start identity) (arounds mid))
    (hSettles : ((made start identity).applyAll (arounds mid)).settles (.imei identity) e = true) :
    c.EndsInTime after e.result := by
  have hArounds : arounds after = arounds mid ++ e :: arounds rest := by
    rw [hSplit, arounds_append]
    rfl
  have hOutcome : ((made start identity).applyAll (arounds after)).outcome?
      start.futures.length = some e.result := by
    rw [hArounds]
    refine Registry.outcome?_of_verdict
      (Registry.future_of_settled (waits_made start identity) hQuiet hSettles fun hDrop => hKept ?_)
    rw [hArounds]
    rcases List.mem_append.mp hDrop with hMid | hRest
    · exact List.mem_append_left _ hMid
    · exact List.mem_append_right _ (List.mem_cons_of_mem e hRest)
  cases h with
  | unasked => cases hRest
  | asking => cases hRest
  | replied reply => cases hRest
  | waiting reply ok =>
    simp [Call.isAtRest, isBlocked, hOutcome] at hRest
  | @ended reply mid' rest' last result split own reason =>
    obtain rfl : reply = r := by simpa using hTold
    cases reason with
    | failed told' turn =>
      rw [hOk] at told'
      cases told'
    | outcome told' came =>
      have hParts : arounds after = arounds mid' ++ arounds rest' := by
        rw [split, arounds_append_of_own own]
      have hLater : .dropped start.futures.length ∉ arounds rest' := by
        intro hDrop
        exact hKept (hParts ▸ List.mem_append_right _ hDrop)
      have hSame := Registry.outcome?_applyAll came hLater
      rw [← Registry.applyAll_append, ← hParts, hOutcome] at hSame
      rw [Option.some.inj hSame]
      exact .inl rfl
    | @timeout choice told' expired =>
      refine .inr ⟨⟨choice, ?_⟩, rfl⟩
      rw [split, expired]
      exact List.mem_append_right _ List.mem_cons_self

/-- A call that ends with a modem got it by its first appearance after the request. -/
theorem returned (h : Requested path start identity asked told after c) {object : Tracked Nat}
    (hStage : c.stage = .ended (.ok object)) :
    ∃ mid rest, after = mid ++ .around (.added object identity) :: rest ∧
      ((made start identity).applyAll (arounds mid)).knows object.path = false := by
  cases h with
  | unasked => cases hStage
  | asking => cases hStage
  | replied reply => cases hStage
  | waiting reply ok => cases hStage
  | @ended reply mid rest last result split own reason =>
    obtain rfl : result = .ok object := by simpa using hStage
    cases reason with
    | outcome told' came =>
      obtain ⟨before, given, later, hArounds, hSettles⟩ :=
        (waits_made start identity).exists_added (Registry.outcome?_eq_some_ok.mp came)
      obtain ⟨first, second, rfl, rfl⟩ := exists_split_of_arounds hArounds
      obtain ⟨hNew, hAccepts⟩ : ((made start identity).applyAll (arounds first)).knows
          object.path = false ∧ identity = given ∧ given ≠ "" := by
        simpa [Registry.settles, ModemFilter.accepts_iff] using hSettles
      obtain rfl : identity = given := hAccepts.1
      refine ⟨first, second ++ last :: rest, ?_, hNew⟩
      rw [split, List.append_assoc, List.cons_append]

/-- If the modem does not reset, the call ends with that error, and nobody waits for its request any
more. -/
theorem failed (h : Requested path start identity asked told after c) (hRest : c.isAtRest = true)
    (hTold : c.told = told ++ [r]) {e : Error} (hError : resetIn r = .error e) :
    c.stage = .ended (.error e) ∧ c.modems.outcome? start.futures.length = none ∧
      ∃ mid rest, after = mid ++ .turn :: rest ∧
        c.modems = (made start identity).applyAll
          (arounds mid ++ .dropped start.futures.length :: arounds rest) := by
  cases h with
  | unasked => cases hRest
  | asking => cases hRest
  | replied reply => cases hRest
  | waiting reply ok =>
    obtain rfl : reply = r := by simpa using hTold
    rw [hError] at ok
    cases ok
  | @ended reply mid rest last result split own reason =>
    obtain rfl : reply = r := by simpa using hTold
    cases reason with
    | @failed e' told' turn =>
      obtain rfl : e' = e := Except.error.inj (told'.symm.trans hError)
      subst turn
      refine ⟨rfl, Registry.outcome?_eq_none_of_abandoned ?_, mid, rest, split, rfl⟩
      exact Registry.abandoned_of_dropped (waits_made start identity).lt
        (List.mem_append_right _ List.mem_cons_self)
    | outcome told' came =>
      rw [hError] at told'
      cases told'
    | timeout told' expired =>
      rw [hError] at told'
      cases told'

end Requested

/-- The reply to the order to reset. -/
def resetReply? (m : Modems) (path : String) (told : List Bus.Reply) : Option Bus.Reply :=
  told[(lookups m path).length]?

/-- **A reset neither loses nor mistakes the modem that comes back.** Whatever others do with the
registry meanwhile, the call comes to rest if it gets turns and replies; it never asks for anything
but the IMEI, where the registry has no identity, and then for the reset; and it never changes what
is known.

If there is no identity to be had, the call ends with the reason. It has not asked for the reset,
and the registry is as if there had been no call.

Otherwise the call makes its request, then asks for the reset, once. If the modem resets, the first
appearance after the request of a modem with the identity is what the call ends with, unless another
request comes first, which cancels it, or the time is over. If the modem does not reset, the call
ends with that error and drops the request.

A call that ends with a modem ends with one that appeared after the request and has the identity. -/
theorem reset_returns_modem (path : String) (m : Modems) (moves : List Move) :
    (∀ rs : List Bus.Reply, 5 ≤ rs.length →
      (run path m (moves ++ rounds rs)).isAtRest = true) ∧
    (run path m moves).asked <+: lookups m path ++ [resetQuery path] ∧
    (run path m moves).modems.known = (m.applyAll (arounds moves)).known ∧
    (∀ x e, identity? m path (run path m moves).told = some x → refusal? path x = some e →
      (run path m moves).asked = lookups m path ∧
      (run path m moves).modems = m.applyAll (arounds moves) ∧
      ((run path m moves).isAtRest = true → (run path m moves).stage = .ended (.error e))) ∧
    (∀ identity, identity? m path (run path m moves).told = some (.ok identity) → identity ≠ "" →
      (run path m moves).isAtRest = true →
      (run path m moves).asked = lookups m path ++ [resetQuery path] ∧
      ∃ before after r, moves = before ++ .turn :: after ∧ RequestsAfter path m before identity ∧
        resetReply? m path (run path m moves).told = some r ∧
        let start := m.applyAll (arounds before)
        (resetIn r = .ok () → .dropped start.futures.length ∉ arounds after →
          (∀ mid object rest, after = mid ++ .around (.added object identity) :: rest →
            Registry.Quiet (.imei identity) (made start identity) (arounds mid) →
            ((made start identity).applyAll (arounds mid)).knows object.path = false →
            (run path m moves).EndsInTime after (.ok object)) ∧
          (∀ mid newer rest, after = mid ++ .around (.requested newer) :: rest →
            Registry.Quiet (.imei identity) (made start identity) (arounds mid) →
            (run path m moves).EndsInTime after (.error .cancelled))) ∧
        (∀ e, resetIn r = .error e →
          (run path m moves).stage = .ended (.error e) ∧
          (run path m moves).modems.outcome? start.futures.length = none ∧
          ∃ mid rest, after = mid ++ .turn :: rest ∧
            (run path m moves).modems = (made start identity).applyAll
              (arounds mid ++ .dropped start.futures.length :: arounds rest))) ∧
    (∀ object, (run path m moves).stage = .ended (.ok object) →
      ∃ identity before mid rest, identity ≠ "" ∧
        identity? m path (run path m moves).told = some (.ok identity) ∧
        moves = before ++ .turn :: (mid ++ .around (.added object identity) :: rest) ∧
        RequestsAfter path m before identity ∧
        ((made (m.applyAll (arounds before)) identity).applyAll (arounds mid)).knows object.path =
          false) := by
  have hRest : ∀ rs : List Bus.Reply, 5 ≤ rs.length →
      (run path m (moves ++ rounds rs)).isAtRest = true := by
    intro rs hLen
    rw [run, List.foldl_append]
    exact isAtRest_rounds path rs (.inr (nearing_run path m moves)) hLen
  rcases course path m moves with
    ⟨hLooking, hModems⟩ | ⟨before, after, identity, told, hMoves, found, hRequested⟩
  · refine ⟨hRest, hLooking.asked_prefix, by rw [hModems], ?_, ?_, ?_⟩
    · intro x e hKnown hRefusal
      obtain ⟨hAsked, hEnd⟩ := hLooking.of_identity? hKnown
      refine ⟨hAsked, hModems, fun hAtRest => ?_⟩
      obtain ⟨e', hRefusal', hStage⟩ := hEnd hAtRest
      rw [hStage, Option.some.inj (hRefusal'.symm.trans hRefusal)]
    · intro identity hKnown hProper hAtRest
      obtain ⟨e, hRefusal, -⟩ := (hLooking.of_identity? hKnown).2 hAtRest
      rw [refusal?_eq_none hProper] at hRefusal
      cases hRefusal
    · intro object hStage
      generalize run path m moves = c at hLooking hStage
      cases hLooking <;> cases hStage
  · have hArounds : arounds moves = arounds before ++ arounds after := by
      rw [hMoves, arounds_append_of_own rfl]
    obtain ⟨more, hTold⟩ := hRequested.told_eq
    have hIdentity : identity? m path (run path m moves).told = some (.ok identity) := by
      rw [hTold]
      exact identity?_append found.known more
    refine ⟨hRest, hRequested.asked_prefix, ?_, ?_, ?_, ?_⟩
    · rw [hRequested.known_eq, hArounds, Registry.applyAll_append]
    · intro x e hKnown hRefusal
      obtain rfl : x = .ok identity := Option.some.inj (hKnown.symm.trans hIdentity)
      rw [refusal?_eq_none found.proper] at hRefusal
      cases hRefusal
    · intro identity' hKnown hProper hAtRest
      obtain rfl : identity' = identity :=
        Except.ok.inj (Option.some.inj (hKnown.symm.trans hIdentity))
      obtain ⟨hAsked, r, hReply⟩ := hRequested.of_isAtRest hAtRest
      refine ⟨hAsked, before, after, r, hMoves, found.requestsAfter, ?_, ?_⟩
      · rw [resetReply?, hReply, ← found.all, List.getElem?_concat_length]
      · intro start
        refine ⟨?_, fun e hError => hRequested.failed hAtRest hReply hError⟩
        intro hOk hKept
        refine ⟨?_, ?_⟩
        · intro mid object rest hSplit hQuiet hNew
          refine hRequested.settled hAtRest hReply hOk hKept hSplit hQuiet
            (Registry.settles_iff.mpr (.inr ⟨object, identity', rfl, hNew, ?_⟩))
          exact ModemFilter.accepts_iff.mpr (.inr ⟨rfl, found.proper⟩)
        · intro mid newer rest hSplit hQuiet
          exact hRequested.settled hAtRest hReply hOk hKept hSplit hQuiet rfl
    · intro object hStage
      obtain ⟨mid, rest, hAfter, hNew⟩ := hRequested.returned hStage
      refine ⟨identity, before, mid, rest, found.proper, hIdentity, ?_, found.requestsAfter, hNew⟩
      rw [hMoves, hAfter]

/-- The modem comes back at another path before the reply to the order to reset, and goes again
before the call takes it. -/
theorem reset_returns_early_modem :
    let m : Modems := (Registry.empty : Modems).apply (.added ⟨"/0", 0⟩ "7")
    let mid : List Move := [.turn, .around (.removed "/0")]
    let rest : List Move := [.replied (.ok []), .turn, .around (.removed "/1"), .turn]
    let moves : List Move := .turn :: (mid ++ .around (.added ⟨"/1", 1⟩ "7") :: rest)
    (run "/0" m moves).isAtRest = true ∧
      (run "/0" m moves).asked = [resetQuery "/0"] ∧
      Registry.Quiet (.imei "7") (made m "7") (arounds mid) ∧
      ((made m "7").applyAll (arounds mid)).knows "/1" = false ∧
      (run "/0" m moves).stage = .ended (.ok ⟨"/1", 1⟩) := by
  intro m mid rest moves
  have hAtRest : (run "/0" m moves).isAtRest = true := by
    subst m mid rest moves
    rfl
  have hKnown : identity? m "/0" (run "/0" m moves).told = some (.ok "7") := by
    subst m mid rest moves
    rfl
  have hAsked : (run "/0" m moves).asked = [resetQuery "/0"] := by
    subst m mid rest moves
    rfl
  have hQuiet : Registry.Quiet (.imei "7") (made m "7") (arounds mid) := ⟨rfl, trivial⟩
  have hNew : ((made m "7").applyAll (arounds mid)).knows "/1" = false := by
    subst m mid rest moves
    rfl
  -- Only before the first turn the registry has no request.
  have hUnmade : ∀ n < moves.length, (run "/0" m (moves.take n)).modems.futures.length =
      (m.applyAll (arounds (moves.take n))).futures.length → n = 0 := by
    subst m mid rest moves
    decide
  obtain ⟨-, -, -, -, hMade, -⟩ := reset_returns_modem "/0" m moves
  obtain ⟨-, before, after, r, hSplit, hPlace, hReply, hOnce, -⟩ :=
    hMade "7" hKnown (by decide) hAtRest
  obtain rfl : before = [] := by
    have hLess : before.length < moves.length := by simp [hSplit]
    have hTake : moves.take before.length = before := by rw [hSplit, List.take_left]
    exact List.length_eq_zero_iff.mp (hUnmade _ hLess (by rw [hTake, hPlace.modems_before]))
  obtain rfl : after = mid ++ .around (.added ⟨"/1", 1⟩ "7") :: rest :=
    (List.cons.inj hSplit).2.symm
  obtain rfl : r = .ok [] := by
    subst m mid rest moves
    exact (Option.some.inj hReply).symm
  obtain ⟨hFirst, -⟩ := hOnce rfl (by subst m mid rest moves; decide)
  rcases hFirst mid ⟨"/1", 1⟩ rest rfl hQuiet hNew with hEnd | ⟨⟨choice, hExpired⟩, -⟩
  · exact ⟨hAtRest, hAsked, hQuiet, hNew, hEnd⟩
  · simp [mid, rest] at hExpired

end ModemLink.Reset
