import ModemLink.Proofs.Program.Courses
import ModemLink.Session.Run

/-!
# Calls that are guarded by the state of a modem

A guarded call reads the state of the modem before it does anything else. Unless the state can be
read and is as required, nothing else is asked and nobody's observers change.

* `Call.guard?`: the calls that are guarded, each with its requirement.
* `Guarded`: a program that goes on only after the state was read and is as required.
* `Guarded.course`: all that such a program can ask.
* `guarded_calls_check_state`: the guarded calls, in every course and in every session.
-/

namespace ModemLink

/-- What a guarded call requires of the state, and what the call is said to do. -/
def Call.guard? : Call → Option (Requirement × String)
  | setPowerState _ => some (.exactly .disabled, "change power state")
  | signal => some (.atLeast .registered, "access signal quality")
  | observeSignal _ => some (.atLeast .registered, "observe signal quality")
  | location => some (.atLeast .registered, "access cell location")
  | observeLocation => some (.atLeast .registered, "observe cell location")
  | networkTime => some (.atLeast .enabled, "get network time")
  | networkTimeEpoch => some (.atLeast .enabled, "get network time")
  | _ => none

namespace Modem

open Bus (Interface.modem Interface.signal Interface.location Interface.time)
open Program (Course Asks)

variable {α β : Type}

/-! ## Reading the state -/

def stateQuery (path : String) : Bus.Query := .get .modemManager path Interface.modem "State"

/-- What a reply to the question for the state means for a call. -/
def verdict (r : Requirement) (action : String) (reply : Bus.Reply) : Except Error Unit :=
  match reply.content (.single .int32) with
  | .error f => .error (.bus f.standard)
  | .ok code => r.check action (.ofCode code)

theorem require_eq (path : String) (r : Requirement) (action : String) :
    require path r action = .whetherLinked fun linked =>
      if linked then .ask (stateQuery path) fun reply => .ofExcept (verdict r action reply)
      else .fail .managerDropped := by
  refine congrArg Program.whetherLinked (funext fun linked => ?_)
  cases linked with
  | false => rfl
  | true =>
    refine congrArg (Program.ask _) (funext fun reply => ?_)
    rw [verdict]
    dsimp only
    cases reply.content (.single .int32) <;> rfl

theorem content_int32 {reply : Bus.Reply} {code : Int32}
    (h : reply.content (.single .int32) = .ok code) : reply = .ok [.int32 code] := by
  obtain ⟨v, rfl, hRead⟩ := Bus.Reply.content_single.mp h
  cases v with
  | int32 n => rw [Option.some.inj hRead]
  | _ => cases hRead

theorem verdict_of_fault {reply : Bus.Reply} {f : Bus.Fault}
    (h : reply.content (.single .int32) = .error f) (r : Requirement) (action : String) :
    verdict r action reply = .error (.bus f.standard) := by
  rw [verdict, h]

theorem verdict_of_code (r : Requirement) (action : String) (code : Int32) :
    verdict r action (.ok [.int32 code]) = r.check action (.ofCode code) := rfl

theorem exists_code_of_verdict {r : Requirement} {action : String} {reply : Bus.Reply}
    (h : verdict r action reply = .ok ()) :
    ∃ code, reply = .ok [.int32 code] ∧ r.isMetBy (.ofCode code) = true := by
  cases hContent : reply.content (.single .int32) with
  | error f =>
    rw [verdict_of_fault hContent] at h
    cases h
  | ok code =>
    obtain rfl := content_int32 hContent
    refine ⟨code, rfl, ?_⟩
    rw [verdict_of_code, Requirement.check] at h
    split at h
    · assumption
    · cases h

/-! ## Guarded programs -/

/-- The program reads the state. If it is as required it goes on with something else to ask, and
never asks for the state again. -/
def Guarded (path : String) (r : Requirement) (action : String) (p : Request α) : Prop :=
  ∃ rest : Request α, p = (require path r action).bind (fun _ => rest) ∧
    Asks (· ≠ stateQuery path) rest ∧ ∃ q next, rest.proceed true = .ask q next

theorem proceed_bind {p : Request α} {q : Bus.Query} {next : Bus.Reply → Request α}
    (h : p.proceed true = .ask q next) (f : α → Request β) :
    (p.bind f).proceed true = .ask q fun r => (next r).bind f := by
  induction p with
  | done a => cases h
  | fail e => cases h
  | ask q' next' _ =>
    obtain ⟨rfl, rfl⟩ := Program.ask.inj h
    rfl
  | whetherLinked next' ih => exact ih true h

theorem Guarded.bind {path : String} {r : Requirement} {action : String} {p : Request α}
    (h : Guarded path r action p) {f : α → Request β}
    (hNext : ∀ a, Asks (· ≠ stateQuery path) (f a)) : Guarded path r action (p.bind f) := by
  obtain ⟨rest, rfl, hAsks, q, next, hFirst⟩ := h
  exact ⟨rest.bind f, Program.bind_assoc _ _ _, Program.asks_bind hAsks hNext, q, _,
    proceed_bind hFirst f⟩

section

variable (path : String)

theorem asks_command (interface member : String) (arguments : List Bus.Value)
    (reply : Bus.BodyType α) (failure : Bus.Fault → Error) :
    Asks (· ≠ stateQuery path) (command path interface member arguments reply failure) :=
  Program.asks_bind Program.asks_connection fun _ => Program.asks_asking nofun _ _

theorem guarded_setPowerState (p : PowerState) :
    Guarded path (.exactly .disabled) "change power state" (setPowerState path p) :=
  ⟨_, rfl, asks_command path _ _ _ _ _, _, _, rfl⟩

theorem guarded_networkTime :
    Guarded path (.atLeast .enabled) "get network time" (networkTime path) :=
  ⟨_, rfl, asks_command path _ _ _ _ _, _, _, rfl⟩

theorem guarded_networkTimeEpoch :
    Guarded path (.atLeast .enabled) "get network time" (networkTimeEpoch path) :=
  (guarded_networkTime path).bind fun _ => Program.asks_ofExcept _

theorem asks_technology : Asks (· ≠ stateQuery path) (technology path) :=
  Program.asks_bind
    (Program.asks_bind Program.asks_connection fun _ =>
      Program.asks_asking (by simp [stateQuery]) _ _)
    fun _ => trivial

theorem guarded_location :
    Guarded path (.atLeast .registered) "access cell location" (location path) := by
  refine ⟨_, rfl, ?_, _, _, rfl⟩
  refine Program.asks_bind Program.asks_connection fun _ => ?_
  refine Program.asks_bind (Program.asks_asking nofun _ _) fun sources => ?_
  cases areaText? sources with
  | none => trivial
  | some text => exact Program.asks_bind (asks_technology path) fun _ => Program.asks_ofExcept _

theorem asks_readSignal (g : Generation) : Asks (· ≠ stateQuery path) (readSignal path g) :=
  Program.asks_bind
    (Program.asks_asking (by cases g <;> simp [stateQuery, reportName]) _ _)
    fun _ => Program.asks_ofExcept _

theorem guarded_signal (config : Config) :
    Guarded path (.atLeast .registered) "access signal quality" (signal path config) := by
  refine ⟨_, rfl, ?_, _, _, rfl⟩
  refine Program.asks_bind Program.asks_connection fun _ => ?_
  refine Program.asks_bind (Program.asks_asking (by simp [stateQuery]) _ _) fun rate => ?_
  have hRead : Asks (· ≠ stateQuery path) ((technology path).bind fun t =>
      (Program.ofExcept t.generation).bind fun g => readSignal path g) :=
    Program.asks_bind (asks_technology path) fun _ =>
      Program.asks_bind (Program.asks_ofExcept _) fun g => asks_readSignal path g
  split
  · exact Program.asks_bind (Program.asks_asking nofun _ _) fun _ => hRead
  · exact hRead

theorem asks_subscribe (s : Bus.Subscription) :
    Asks (· ≠ stateQuery path) (Request.subscribe s) :=
  Program.asks_bind (Program.asks_asking nofun _ _) fun _ => trivial

theorem guarded_watchSignal (interval : Nat) :
    Guarded path (.atLeast .registered) "observe signal quality" (watchSignal path interval) := by
  refine ⟨_, rfl, ?_, _, _, rfl⟩
  refine Program.asks_bind Program.asks_connection fun _ => ?_
  refine Program.asks_bind (Program.asks_asking nofun _ _) fun _ => ?_
  refine Program.asks_bind Program.asks_connection fun _ => ?_
  exact Program.asks_bind (asks_subscribe path _) fun _ => trivial

theorem guarded_watchLocation :
    Guarded path (.atLeast .registered) "observe cell location" (watchLocation path) := by
  refine ⟨_, rfl, ?_, _, _, rfl⟩
  refine Program.asks_bind Program.asks_connection fun _ => ?_
  refine Program.asks_bind (Program.asks_asking nofun _ _) fun _ => ?_
  refine Program.asks_bind Program.asks_connection fun _ => ?_
  exact Program.asks_bind (asks_subscribe path _) fun _ => trivial

end

/-! ## Courses and runs -/

namespace Guarded

variable {path : String} {r : Requirement} {action : String} {p : Request α}

/-- A guarded program asks for the state at most, or the state was read first and is as required. -/
theorem course (h : Guarded path r action p) {asked : List Bus.Query} {told : List Bus.Reply}
    {x : Option (Except Error α)} (hCourse : Course p asked told x) :
    asked <+: [stateQuery path] ∨ ∃ rest code more, asked = stateQuery path :: rest ∧
      stateQuery path ∉ rest ∧ told = .ok [.int32 code] :: more ∧
      r.isMetBy (.ofCode code) = true := by
  obtain ⟨rest, rfl, hAsks, -⟩ := h
  rw [require_eq] at hCourse
  cases hCourse with
  | untouched => exact .inl List.nil_prefix
  | @looked _ linked _ _ _ hCourse =>
    cases linked with
    | false => cases hCourse <;> exact .inl List.nil_prefix
    | true =>
      cases hCourse with
      | untouched => exact .inl List.nil_prefix
      | waiting => exact .inl (List.prefix_refl _)
      | @told _ _ reply asked told _ hCourse =>
        dsimp only at hCourse
        cases hVerdict : verdict r action reply with
        | error e =>
          rw [hVerdict] at hCourse
          cases hCourse <;> exact .inl (List.prefix_refl _)
        | ok u =>
          rw [hVerdict] at hCourse
          obtain ⟨code, rfl, hMet⟩ := exists_code_of_verdict hVerdict
          exact .inr ⟨asked, code, told, rfl, fun hAgain => hCourse.asks hAsks _ hAgain rfl, rfl,
            hMet⟩

variable {σ : Type} (answer : σ → Bus.Query → Bus.Reply × σ) (s : σ)

theorem run_of_unlinked (h : Guarded path r action p) :
    p.run answer false s = ⟨.error .managerDropped, s, []⟩ := by
  obtain ⟨rest, rfl, -, -⟩ := h
  rfl

theorem run_of_error (h : Guarded path r action p) {e : Error}
    (hVerdict : verdict r action (answer s (stateQuery path)).1 = .error e) :
    p.run answer true s = ⟨.error e, (answer s (stateQuery path)).2,
      [(stateQuery path, (answer s (stateQuery path)).1)]⟩ := by
  obtain ⟨rest, rfl, -, -⟩ := h
  rw [require_eq]
  simp only [Program.bind, Program.run, if_true, hVerdict, Program.ofExcept]

theorem run_of_ok (h : Guarded path r action p)
    (hVerdict : verdict r action (answer s (stateQuery path)).1 = .ok ()) :
    ∃ q later, (p.run answer true s).trace.map Prod.fst = stateQuery path :: q :: later := by
  obtain ⟨rest, rfl, -, q, next, hFirst⟩ := h
  rw [require_eq]
  simp only [Program.bind, Program.run, if_true, hVerdict, Program.ofExcept]
  rw [← Program.run_proceed, hFirst]
  exact ⟨q, _, rfl⟩

end Guarded

end Modem

open Modem (Guarded stateQuery verdict)

theorem Call.exists_guarded {call : Call} {r : Requirement} {action : String}
    (h : call.guard? = some (r, action)) (config : Config) (path : String) :
    ∃ p, call.onModem? config path = some p ∧ Guarded path r action p := by
  have hDone : ∀ x : Call.Result,
      Program.Asks (· ≠ stateQuery path) (.done x : Request Call.Result) := fun _ => trivial
  cases call with
  | setPowerState p =>
    obtain ⟨rfl, rfl⟩ := Prod.mk.inj (Option.some.inj h)
    exact ⟨_, rfl, (Modem.guarded_setPowerState path p).bind fun _ => hDone _⟩
  | signal =>
    obtain ⟨rfl, rfl⟩ := Prod.mk.inj (Option.some.inj h)
    exact ⟨_, rfl, (Modem.guarded_signal path config).bind fun _ => hDone _⟩
  | observeSignal interval =>
    obtain ⟨rfl, rfl⟩ := Prod.mk.inj (Option.some.inj h)
    exact ⟨_, rfl, (Modem.guarded_watchSignal path interval).bind fun _ => hDone _⟩
  | location =>
    obtain ⟨rfl, rfl⟩ := Prod.mk.inj (Option.some.inj h)
    exact ⟨_, rfl, (Modem.guarded_location path).bind fun _ => hDone _⟩
  | observeLocation =>
    obtain ⟨rfl, rfl⟩ := Prod.mk.inj (Option.some.inj h)
    exact ⟨_, rfl, (Modem.guarded_watchLocation path).bind fun _ => hDone _⟩
  | networkTime =>
    obtain ⟨rfl, rfl⟩ := Prod.mk.inj (Option.some.inj h)
    exact ⟨_, rfl, (Modem.guarded_networkTime path).bind fun _ => hDone _⟩
  | networkTimeEpoch =>
    obtain ⟨rfl, rfl⟩ := Prod.mk.inj (Option.some.inj h)
    exact ⟨_, rfl, (Modem.guarded_networkTimeEpoch path).bind fun _ => hDone _⟩
  | _ => cases h

/-! ## Sessions -/

theorem Bus.World.answer_get (w : World) (service : Service) (path interface name : String) :
    (w.answer (.get service path interface name)).2 = w := by
  simp only [answer, reply]
  split
  · split <;> rfl
  · rfl

/-- Reading a property of a scripted bus changes nothing but the record of calls. -/
theorem Scene.ask_get (s : Scene) (service : Bus.Service) (path interface name : String) :
    (s.ask (.get service path interface name)).2 =
      { s with calls := s.calls ++ [.get service path interface name] } := by
  have hWorld := s.world.answer_get service path interface name
  rw [ask]
  simp only [hWorld, isCall, if_true]

namespace Session

theorem call_of_error {s : Session} {target : String} {m : Tracked Nat} {call : Call}
    {p : Request Call.Result} {e : Error} (hHeld : s.held? target = some (.modem m))
    (hCall : call.onModem? s.client.config m.path = some p)
    (hRun : (p.run Scene.ask s.client.isLinked s.scene).result = .error e) (tag : String)
    (name : Option String) :
    s.call target tag name call =
      ({ s with scene := (p.run Scene.ask s.client.isLinked s.scene).state }, .failed e) := by
  simp only [Session.call, hHeld, Option.bind_some, callOn?, hCall, Option.map_some, request, hRun]

/-- **Guarded calls check the state first.** Whatever the replies are and whenever the manager goes,
a guarded call asks for the state at most, unless the state was read right before and is as
required; it does not ask for the state again.

If the state cannot be read, or is not as required, the call fails for this reason, and a session on
any scripted bus is as before, observers and all, but for this one reading on record. Without a
manager not even that is asked. If the state is as required the call goes on. -/
theorem guarded_calls_check_state {call : Call} {r : Requirement} {action : String}
    (hGuard : call.guard? = some (r, action)) (config : Config) (m : Tracked Nat) :
    ∃ p, call.onModem? config m.path = some p ∧
      (∀ asked told x, Program.Course p asked told x →
        asked <+: [stateQuery m.path] ∨ ∃ rest code more, asked = stateQuery m.path :: rest ∧
          stateQuery m.path ∉ rest ∧ told = .ok [.int32 code] :: more ∧
          r.isMetBy (.ofCode code) = true) ∧
      (∀ (σ : Type) (answer : σ → Bus.Query → Bus.Reply × σ) (s : σ) code,
        (answer s (stateQuery m.path)).1 = .ok [.int32 code] → r.isMetBy (.ofCode code) = true →
        ∃ q later, (p.run answer true s).trace.map Prod.fst = stateQuery m.path :: q :: later) ∧
      ∀ (s : Session) target tag name, s.held? target = some (.modem m) →
        s.client.config = config →
        let reply := (s.scene.ask (stateQuery m.path)).1
        let asked : Session :=
          { s with scene := { s.scene with calls := s.scene.calls ++ [stateQuery m.path] } }
        (s.client.isLinked = false →
          s.call target tag name call = (s, .failed .managerDropped)) ∧
        (s.client.isLinked = true → ∀ f, reply.content (.single .int32) = .error f →
          s.call target tag name call = (asked, .failed (.bus f.standard))) ∧
        (s.client.isLinked = true → ∀ code, reply.content (.single .int32) = .ok code →
          r.isMetBy (.ofCode code) = false →
          s.call target tag name call =
            (asked, .failed (.preconditionNotMet action r (.ofCode code)))) := by
  obtain ⟨p, hCall, hGuarded⟩ := call.exists_guarded hGuard config m.path
  refine ⟨p, hCall, fun _ _ _ hCourse => hGuarded.course hCourse, ?_, ?_⟩
  · intro σ answer s code hReply hMet
    refine hGuarded.run_of_ok answer s ?_
    rw [hReply, Modem.verdict_of_code, Requirement.check, if_pos hMet]
  · rintro s target tag name hHeld rfl reply asked
    have hFails : s.client.isLinked = true → ∀ e, verdict r action reply = .error e →
        s.call target tag name call = (asked, .failed e) := by
      intro hLinked e hVerdict
      have hRun := hGuarded.run_of_error Scene.ask s.scene hVerdict
      rw [← hLinked] at hRun
      rw [call_of_error hHeld hCall (congrArg Program.Outcome.result hRun), hRun]
      exact congrArg (fun scene : Scene => (({ s with scene } : Session), Answer.failed e))
        (s.scene.ask_get _ _ _ _)
    refine ⟨fun hLinked => ?_, fun hLinked f hFault => ?_, fun hLinked code hCode hUnmet => ?_⟩
    · have hRun := hGuarded.run_of_unlinked Scene.ask s.scene
      rw [← hLinked] at hRun
      rw [call_of_error hHeld hCall (congrArg Program.Outcome.result hRun), hRun]
    · exact hFails hLinked _ (Modem.verdict_of_fault hFault r action)
    · refine hFails hLinked _ ?_
      rw [verdict, hCode]
      simp only [Requirement.check, hUnmet]
      rfl

/-- A modem in a state without a name refuses an observer of its signal while another one is
registered; a registered modem goes on. -/
theorem signal_observer_needs_registration :
    let path := "/org/freedesktop/ModemManager1/Modem/0"
    let world : Bus.World :=
      ⟨true, true, [(path, [(Bus.Interface.modem, [("State", .value (.int32 99) false)])])], []⟩
    let client := Client.ofModems {} [(path, "7")]
    let earlier : Watcher := .ofWatch "earlier" ⟨none, fun _ => []⟩
    let s : Session :=
      ⟨{ client with board := client.board.register ⟨0, .signal⟩ earlier }, ⟨world, [], []⟩,
        [("m", .modem ⟨path, 0⟩)]⟩
    (Call.observeSignal 5000).guard? = some (.atLeast .registered, "observe signal quality") ∧
      s.call "m" "later" none (.observeSignal 5000) =
        ({ s with scene := ⟨world, [stateQuery path], []⟩ },
          .failed (.preconditionNotMet "observe signal quality" (.atLeast .registered) .unknown)) ∧
      ∃ p, (Call.observeSignal 5000).onModem? {} path = some p ∧
        ∃ q later, (p.run (fun _ _ => (.ok [.int32 8], ())) true ()).trace.map Prod.fst =
          stateQuery path :: q :: later := by
  intro path world client earlier s
  have hGuard : (Call.observeSignal 5000).guard? =
      some (.atLeast .registered, "observe signal quality") := rfl
  obtain ⟨p, hCall, -, hOn, hSession⟩ := guarded_calls_check_state hGuard {} ⟨path, 0⟩
  obtain ⟨-, -, hUnmet⟩ := hSession s "m" "later" none rfl rfl
  refine ⟨hGuard, hUnmet rfl 99 ?_ rfl, p, hCall, hOn Unit _ () 8 rfl rfl⟩
  subst path world client earlier s
  rfl

end Session

end ModemLink
