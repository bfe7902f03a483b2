import ModemLink.Proofs.Remote.Rates
import ModemLink.Proofs.Remote.Reports
import ModemLink.Proofs.Session.Habits

/-!
# Signal reports stay on

Nothing in a session turns the signal reports of a modem off. The rate of the reports is set by two
calls only, each of which sets it once at most; whatever else is called, and whatever goes on by
itself, leaves it alone.

* `Call.keepsRate_onModem`, `Call.keepsRate_onSim`, `Call.keepsRate_onBearer`: the other calls.
* `habits_keepRate`: what a client asks of its own accord.
* `Session.rateCalls_step`: the rates that a step of a session sets.
* `Session.signal_reports_stay_on`: the two calls, in every course and in every session.
-/

namespace ModemLink

open Bus (Query Interface.signal)
open Program (Asks Course)

variable {α : Type}

/-! ## Operations -/

namespace Modem

variable (path : String)

theorem keepsRate_property (interface name : String) (type : Bus.ValueType α) :
    KeepsRate (property path interface name type) :=
  keepsRate_linked (ModemLink.keepsRate_property _ _ _ _ _)

theorem keepsRate_command {interface : String} (h : interface ≠ Interface.signal)
    (member : String) (arguments : List Bus.Value) (reply : Bus.BodyType α)
    (failure : Bus.Fault → Error) :
    KeepsRate (command path interface member arguments reply failure) :=
  keepsRate_linked (ModemLink.keepsRate_command h _ _ _ _ _ _)

theorem keepsRate_state : KeepsRate (state path) := (keepsRate_property path _ _ _).map _

theorem keepsRate_require (r : Requirement) (action : String) :
    KeepsRate (require path r action) :=
  (keepsRate_state path).bind fun _ => keepsRate_ofExcept _

theorem keepsRate_lockState : KeepsRate (lockState path) := (keepsRate_property path _ _ _).map _

theorem keepsRate_technology : KeepsRate (technology path) := (keepsRate_property path _ _ _).map _

theorem keepsRate_setPowerState (p : PowerState) : KeepsRate (setPowerState path p) :=
  (keepsRate_require path _ _).bind fun _ => keepsRate_command path (by decide) _ _ _ _

theorem keepsRate_firstActive (bearers : List String) : KeepsRate (firstActive bearers) := by
  induction bearers with
  | nil => trivial
  | cons bearer rest ih =>
    refine (keepsRate_linked (ModemLink.keepsRate_property _ _ _ _ _)).bind fun isActive => ?_
    cases isActive with
    | true => trivial
    | false => exact ih

theorem keepsRate_connect (apn : String) (ipType : IpType) :
    KeepsRate (connect path apn ipType) :=
  (keepsRate_command path (by decide) _ _ _ _).bind fun _ =>
    (keepsRate_linked (ModemLink.keepsRate_command (by decide) _ _ _ _ _ _)).map _

theorem keepsRate_readSignal (g : Generation) : KeepsRate (readSignal path g) :=
  (ModemLink.keepsRate_property _ _ _ _ _).bind fun _ => keepsRate_ofExcept _

theorem keepsRate_cellInfo : KeepsRate (cellInfo path) :=
  (keepsRate_command path (by decide) _ _ _ _).bind fun _ => keepsRate_ofExcept _

theorem keepsRate_readSources : KeepsRate (readSources path) :=
  ModemLink.keepsRate_command (by decide) _ _ _ _ _ _

theorem keepsRate_location : KeepsRate (location path) := by
  refine (keepsRate_require path _ _).bind fun _ =>
    keepsRate_linked ((keepsRate_readSources path).bind fun sources => ?_)
  cases areaText? sources with
  | none => trivial
  | some text => exact (keepsRate_technology path).bind fun _ => keepsRate_ofExcept _

theorem keepsRate_networkTime : KeepsRate (networkTime path) :=
  (keepsRate_require path _ _).bind fun _ => keepsRate_command path (by decide) _ _ _ _

/-- Asking for signals, after which a watch is described. -/
theorem keepsRate_watch (s : Bus.Subscription) (f : Option Bus.Subscription → Watch) :
    KeepsRate ((Program.connection : Request Unit).bind fun _ =>
      (Request.subscribe s).bind fun s => .done (f s)) :=
  keepsRate_linked ((keepsRate_subscribe s).map _)

theorem keepsRate_watchLocation : KeepsRate (watchLocation path) :=
  (keepsRate_require path _ _).bind fun _ => keepsRate_linked
    ((ModemLink.keepsRate_command (by decide) _ _ _ _ _ _).bind fun _ => keepsRate_watch _ _)

theorem keepsRate_rereadLocation : KeepsRate (rereadLocation path) := by
  refine (keepsRate_readSources path).bind fun sources => ?_
  cases areaText? sources with
  | none => trivial
  | some text =>
    exact (ModemLink.keepsRate_property _ _ _ _ _).bind fun _ => keepsRate_ofExcept _

end Modem

namespace Bearer

variable (path : String)

theorem keepsRate_property (name : String) (type : Bus.ValueType α) :
    KeepsRate (property path name type) :=
  keepsRate_linked (ModemLink.keepsRate_property _ _ _ _ _)

theorem keepsRate_settings : KeepsRate (settings path) := (keepsRate_property path _ _).map _

theorem keepsRate_devicePath (interface : String) : KeepsRate (Network.devicePath interface) :=
  keepsRate_command (by decide) _ _ _ _ _ _

theorem keepsRate_counters (interface : String) : KeepsRate (Network.provider.read interface) :=
  (keepsRate_devicePath interface).bind fun _ =>
    (ModemLink.keepsRate_property _ _ _ _ _).bind fun _ =>
      (ModemLink.keepsRate_property _ _ _ _ _).map _

theorem keepsRate_trafficStats : KeepsRate (trafficStats path) :=
  (keepsRate_property path _ _).bind fun interface =>
    keepsRate_linked (keepsRate_counters interface)

theorem keepsRate_watchTraffic (interval : UInt32) : KeepsRate (watchTraffic path interval) := by
  refine (keepsRate_property path _ _).bind fun interface => keepsRate_linked (KeepsRate.map ?_ _)
  refine KeepsRate.bind ?_ fun _ => ?_
  · exact (keepsRate_devicePath interface).bind fun _ => keepsRate_write _ _ _ _ _
  · exact (keepsRate_devicePath interface).bind fun _ => keepsRate_subscribe _

end Bearer

namespace Call

variable {call : Call} {path : String} {p q : Request Result}

private theorem keepsRate_of_some (hCall : some q = some p) (h : KeepsRate q) : KeepsRate p :=
  Option.some.inj hCall ▸ h

theorem keepsRate_onModem {config : Config} (h : call.onModem? config path = some p)
    (hSignal : call ≠ .signal) (hObserve : ∀ interval, call ≠ .observeSignal interval) :
    KeepsRate p := by
  cases call with
  | manufacturer | model | imei | firmwareVersion | operatorPlmn | operatorName | connections =>
    exact keepsRate_of_some h ((Modem.keepsRate_property path _ _ _).map _)
  | phoneNumber | powerState | activeSim =>
    exact keepsRate_of_some h (((Modem.keepsRate_property path _ _ _).map _).map _)
  | state => exact keepsRate_of_some h ((Modem.keepsRate_state path).map _)
  | isEnabled | isRegistered | isConnected =>
    exact keepsRate_of_some h (((Modem.keepsRate_state path).map _).map _)
  | lockState => exact keepsRate_of_some h ((Modem.keepsRate_lockState path).map _)
  | isLocked => exact keepsRate_of_some h (((Modem.keepsRate_lockState path).map _).map _)
  | enable | reset =>
    exact keepsRate_of_some h ((Modem.keepsRate_command path (by decide) _ _ _ _).map _)
  | setPowerState power =>
    exact keepsRate_of_some h ((Modem.keepsRate_setPowerState path power).map _)
  | activeConnection =>
    exact keepsRate_of_some h (((Modem.keepsRate_property path _ _ _).bind fun bearers =>
      Modem.keepsRate_firstActive bearers).map _)
  | connect accessPoint family =>
    exact keepsRate_of_some h ((Modem.keepsRate_connect path accessPoint family).map _)
  | technology => exact keepsRate_of_some h ((Modem.keepsRate_technology path).map _)
  | signal => exact absurd rfl hSignal
  | cellInfo => exact keepsRate_of_some h ((Modem.keepsRate_cellInfo path).map _)
  | location => exact keepsRate_of_some h ((Modem.keepsRate_location path).map _)
  | networkTime => exact keepsRate_of_some h ((Modem.keepsRate_networkTime path).map _)
  | networkTimeEpoch =>
    exact keepsRate_of_some h (((Modem.keepsRate_networkTime path).bind fun _ =>
      keepsRate_ofExcept _).map _)
  | observeState => exact keepsRate_of_some h ((Modem.keepsRate_watch _ _).map _)
  | observeSignal interval => exact absurd rfl (hObserve interval)
  | observeLocation => exact keepsRate_of_some h ((Modem.keepsRate_watchLocation path).map _)
  | _ => cases h

theorem keepsRate_onSim (h : call.onSim? path = some p) : KeepsRate p := by
  cases call with
  | sendPin | sendPuk =>
    exact keepsRate_of_some h
      ((keepsRate_linked (keepsRate_command (by decide) _ _ _ _ _ _)).map _)
  | isActive | imsi | iccid | homePlmn | operatorName =>
    exact keepsRate_of_some h ((keepsRate_linked (keepsRate_property _ _ _ _ _)).map _)
  | _ => cases h

theorem keepsRate_onBearer (h : call.onBearer? path = some p) : KeepsRate p := by
  cases call with
  | disconnect =>
    exact keepsRate_of_some h
      ((keepsRate_linked (keepsRate_command (by decide) _ _ _ _ _ _)).map _)
  | isActive | interface =>
    exact keepsRate_of_some h ((Bearer.keepsRate_property path _ _).map _)
  | apn =>
    exact keepsRate_of_some h (((Bearer.keepsRate_settings path).bind fun _ =>
      keepsRate_ofExcept _).map _)
  | ipType =>
    exact keepsRate_of_some h (((Bearer.keepsRate_settings path).bind fun _ =>
      (keepsRate_ofExcept _).map _).map _)
  | ipv4Config | ipv6Config =>
    exact keepsRate_of_some h (((Bearer.keepsRate_property path _ _).map _).map _)
  | trafficStats => exact keepsRate_of_some h ((Bearer.keepsRate_trafficStats path).map _)
  | observeTraffic interval =>
    exact keepsRate_of_some h ((Bearer.keepsRate_watchTraffic path interval).map _)
  | _ => cases h

end Call

/-! ## Reactions -/

open Bus (Value)

/-- All readings that the signals of a watch give rise to leave the rate alone. -/
def Watch.KeepsRate (w : Watch) : Prop :=
  ∀ body, ∀ reading ∈ w.react body, ModemLink.KeepsRate reading

theorem Watch.keepsRate_ofChanges {subscription : Option Bus.Subscription} {interface : String}
    {react : List String → List (Request Notification)}
    (h : ∀ names, ∀ reading ∈ react names, ModemLink.KeepsRate reading) :
    (ofChanges subscription interface react).KeepsRate := by
  intro body reading hMem
  simp only [ofChanges] at hMem
  cases hNames : changedNames? interface body with
  | none =>
    rw [hNames] at hMem
    cases hMem
  | some names =>
    rw [hNames] at hMem
    exact h names reading hMem

namespace Modem

theorem keepsRate_onStateChange (subscription : Option Bus.Subscription) :
    (⟨subscription, onStateChange⟩ : Watch).KeepsRate := by
  intro body reading hMem
  simp only [onStateChange] at hMem
  split at hMem
  · obtain rfl := List.mem_singleton.mp hMem
    trivial
  · cases hMem

theorem keepsRate_onSignalChange (path : String) (names : List String) :
    ∀ reading ∈ onSignalChange path names, KeepsRate reading := by
  intro reading hMem
  obtain ⟨g, -, rfl⟩ := List.mem_map.mp hMem
  exact (keepsRate_readSignal path g).map _

theorem keepsRate_onLocationChange (path : String) (names : List String) :
    ∀ reading ∈ onLocationChange path names, KeepsRate reading := by
  intro reading hMem
  unfold onLocationChange at hMem
  split at hMem
  · obtain rfl := List.mem_singleton.mp hMem
    exact (keepsRate_rereadLocation path).map _
  · cases hMem

end Modem

theorem Bearer.keepsRate_onCounterChange (interface : String) (names : List String) :
    ∀ reading ∈ onCounterChange interface names, KeepsRate reading := by
  intro reading hMem
  unfold onCounterChange at hMem
  split at hMem
  · obtain rfl := List.mem_singleton.mp hMem
    exact (keepsRate_counters interface).map _
  · cases hMem

open Program (exists_of_possible_bind exists_of_possible_map)

theorem Call.possible_watch {prepare : Request Watch} {kind kind' : WatchKind} {w : Watch}
    (h : (prepare.bind fun w => .done (Result.watch kind' w)).Possible
      (.ok (Result.watch kind w))) : prepare.Possible (.ok w) := by
  obtain ⟨w', hPrepared, hEq⟩ := exists_of_possible_bind h
  cases hEq
  exact hPrepared

/-- What a call's observer reads leaves the rate alone. -/
theorem Call.keepsRate_react {s : Session} {h : Held} {call : Call} {p : Request Result}
    {owner : Nat} {kind : WatchKind} {w : Watch} (hCall : s.callOn? h call = some (p, owner))
    (hEnd : p.Possible (.ok (.watch kind w))) : w.KeepsRate := by
  obtain ⟨m, -, hOn⟩ | ⟨path, -, hOn⟩ | ⟨b, -, hOn⟩ := Session.callOn?_cases hCall
  · cases call with
    | observeState =>
      cases hOn
      obtain ⟨-, -, hHeard⟩ := exists_of_possible_bind (possible_watch hEnd)
      obtain ⟨heard, rfl⟩ := exists_of_possible_map hHeard
      exact Modem.keepsRate_onStateChange heard
    | observeSignal interval =>
      cases hOn
      have hPrepared := possible_watch hEnd
      rw [Modem.watchSignal_eq] at hPrepared
      obtain ⟨-, -, hHeard⟩ := exists_of_possible_bind hPrepared
      obtain ⟨heard, rfl⟩ := exists_of_possible_map hHeard
      exact Watch.keepsRate_ofChanges (Modem.keepsRate_onSignalChange m.path)
    | observeLocation =>
      cases hOn
      have hPrepared := possible_watch hEnd
      rw [Modem.watchLocation_eq] at hPrepared
      obtain ⟨-, -, hHeard⟩ := exists_of_possible_bind hPrepared
      obtain ⟨heard, rfl⟩ := exists_of_possible_map hHeard
      exact Watch.keepsRate_ofChanges (Modem.keepsRate_onLocationChange m.path)
    | _ =>
      cases hOn <;>
      · obtain ⟨a, hEq⟩ := exists_of_possible_map hEnd
        cases hEq
  · cases call <;> cases hOn <;>
    · obtain ⟨a, hEq⟩ := exists_of_possible_map hEnd
      cases hEq
  · cases call with
    | observeTraffic interval =>
      cases hOn
      obtain ⟨interface, -, hRest⟩ := exists_of_possible_bind (possible_watch hEnd)
      obtain ⟨-, -, hRest⟩ := exists_of_possible_bind hRest
      obtain ⟨heard, rfl⟩ := exists_of_possible_map hRest
      exact Watch.keepsRate_ofChanges (Bearer.keepsRate_onCounterChange interface)
    | _ =>
      cases hOn <;>
      · obtain ⟨a, hEq⟩ := exists_of_possible_map hEnd
        cases hEq

/-! ## Habits -/

namespace Manager

theorem keepsRate_enumerate : KeepsRate enumerate :=
  keepsRate_linked ((keepsRate_subscribe _).bind fun _ => (keepsRate_subscribe _).bind fun _ =>
    (keepsRate_command (by decide) _ _ _ _ _ _).bind fun _ => keepsRate_ofExcept _)

theorem keepsRate_identifyAll (announcements : List Announcement)
    (h : ∀ a : Announcement, KeepsRate a.identify) : KeepsRate (identifyAll announcements) := by
  induction announcements with
  | nil => trivial
  | cons a rest ih =>
    unfold identifyAll
    split
    · exact (h a).bind fun _ => ih.map _
    · exact ih

end Manager

/-- Nothing that a client does of its own accord sets the rate of signal reports. -/
theorem habits_keepRate : Habits fun q => ¬ q.SetsRate where
  start := by
    have hImei (path : String) : KeepsRate (Modem.imei path) := Modem.keepsRate_property path _ _ _
    refine Program.asks_bind Manager.keepsRate_enumerate.attempt fun objects => ?_
    cases objects with
    | error e => trivial
    | ok objects => exact Manager.keepsRate_identifyAll objects fun a => a.asks_identify hImei
  version := keepsRate_property _ _ _ _ _
  scanDevices := keepsRate_command (by decide) _ _ _ _ _ _
  imei path := Modem.keepsRate_property path _ _ _
  reset path := Modem.keepsRate_command path (by decide) _ _ _ _
  react hCall hEnd := Call.keepsRate_react hCall hEnd

/-! ## Sessions -/

theorem rateCalls_of_calls {asked more : List Query} (h : ∀ q ∈ more, ¬ q.SetsRate) :
    rateCalls (asked.filter Scene.isCall ++ more) = rateCalls asked := by
  have hCalls : rateCalls (asked.filter Scene.isCall) = rateCalls asked := by
    unfold rateCalls
    rw [List.filter_filter]
    refine List.filter_congr fun q _ => ?_
    cases q with
    | subscribe subscription => rfl
    | _ => exact Bool.and_true _
  rw [rateCalls, List.filter_append]
  exact (congrArg₂ _ hCalls (rateCalls_of_none h)).trans (List.append_nil _)

namespace Session

theorem rateCalls_run_map {β : Type} (p : Request α) (f : α → β) (linked : Bool) (scene : Scene) :
    rateCalls (((p.bind fun a => .done (f a)).run Scene.ask linked scene).trace.map Prod.fst) =
      rateCalls ((p.run Scene.ask linked scene).trace.map Prod.fst) := by
  rw [Program.run_map]

/-- A call sets a rate only if it is one of the two calls on a modem, and then once. -/
theorem rateCalls_callOn {s : Session} {h : Held} {call : Call} {p : Request Call.Result}
    {owner : Nat} (hCall : s.callOn? h call = some (p, owner)) (linked : Bool) (scene : Scene) :
    let set := rateCalls ((p.run Scene.ask linked scene).trace.map Prod.fst)
    set = [] ∨ ∃ m, h = .modem m ∧
      ((call = .signal ∧ set = [Modem.setupQuery m.path s.client.config.signalRefresh]) ∨
        ∃ interval, call = .observeSignal interval ∧
          set = [Modem.setupQuery m.path interval]) := by
  have hKept (hKeeps : KeepsRate p) :
      rateCalls ((p.run Scene.ask linked scene).trace.map Prod.fst) = [] :=
    rateCalls_of_none ((Program.course_run p Scene.ask linked scene).asks hKeeps)
  intro set
  obtain ⟨m, rfl, hOn⟩ | ⟨path, -, hOn⟩ | ⟨b, -, hOn⟩ := callOn?_cases hCall
  · by_cases hSignal : call = .signal
    · subst hSignal
      cases hOn
      have hMap := rateCalls_run_map (Modem.signal m.path s.client.config) Call.Result.signal
        linked scene
      have hCourse := Program.course_run (Modem.signal m.path s.client.config) Scene.ask linked
        scene
      exact (Modem.rateCalls_signal hCourse).imp hMap.trans fun hOne =>
        ⟨m, rfl, .inl ⟨rfl, hMap.trans hOne⟩⟩
    · by_cases hObserve : ∃ interval, call = .observeSignal interval
      · obtain ⟨interval, rfl⟩ := hObserve
        cases hOn
        have hMap := rateCalls_run_map (Modem.watchSignal m.path interval)
          (Call.Result.watch .signal) linked scene
        have hCourse := Program.course_run (Modem.watchSignal m.path interval) Scene.ask linked
          scene
        exact (Modem.rateCalls_watchSignal hCourse).imp hMap.trans fun hOne =>
          ⟨m, rfl, .inr ⟨interval, rfl, hMap.trans hOne⟩⟩
      · exact .inl (hKept (Call.keepsRate_onModem hOn hSignal (not_exists.mp hObserve)))
  · exact .inl (hKept (Call.keepsRate_onSim hOn))
  · exact .inl (hKept (Call.keepsRate_onBearer hOn))

/-- A step sets a rate only if it makes one of the two calls, and then once. -/
theorem rateCalls_step {s : Session} (h : s.client.Asks fun q => ¬ q.SetsRate) (step : Step) :
    let set := rateCalls (s.step step).2.calls
    set = [] ∨ ∃ target tag name m, s.held? target = some (.modem m) ∧
      ((step = .call target tag name .signal ∧
          set = [Modem.setupQuery m.path s.client.config.signalRefresh]) ∨
        ∃ interval, step = .call target tag name (.observeSignal interval) ∧
          set = [Modem.setupQuery m.path interval]) := by
  intro set
  by_cases hStep : ∃ target tag name call, step = .call target tag name call
  · obtain ⟨target, tag, name, call, rfl⟩ := hStep
    cases hTarget : (s.held? target).bind fun h => s.callOn? h call with
    | none => exact .inl (rateCalls_of_none (calls_of_none habits_keepRate h hTarget tag name))
    | some taken =>
      obtain ⟨p, owner⟩ := taken
      obtain ⟨held, hHeld, hOn⟩ := Option.bind_eq_some_iff.mp hTarget
      obtain ⟨more, hCalls, hMore⟩ := calls_of_call habits_keepRate h hTarget tag name
      have hSet : set = rateCalls
          ((p.run Scene.ask s.client.isLinked s.scene.fresh).trace.map Prod.fst) :=
        (congrArg rateCalls hCalls).trans (rateCalls_of_calls hMore)
      rw [hSet]
      refine (rateCalls_callOn hOn s.client.isLinked s.scene.fresh).imp_right ?_
      rintro ⟨m, rfl, ⟨rfl, hOne⟩ | ⟨interval, rfl, hOne⟩⟩
      · exact ⟨target, tag, name, m, hHeld, .inl ⟨rfl, hOne⟩⟩
      · exact ⟨target, tag, name, m, hHeld, .inr ⟨interval, rfl, hOne⟩⟩
  · exact .inl (rateCalls_of_none (calls_of_other habits_keepRate h fun target tag name call hEq =>
      hStep ⟨target, tag, name, call, hEq⟩))

/-- The same of a session that was opened with a configuration. -/
theorem rateCalls_after (config : Config) (modems : List (String × String)) (scene : Scene)
    (before : List Step) (step : Step) :
    let s := (opened config modems scene).after before
    let set := rateCalls (s.step step).2.calls
    set = [] ∨ ∃ target tag name m, s.held? target = some (.modem m) ∧
      ((step = .call target tag name .signal ∧
          set = [Modem.setupQuery m.path config.signalRefresh]) ∨
        ∃ interval, step = .call target tag name (.observeSignal interval) ∧
          set = [Modem.setupQuery m.path interval]) := by
  intro s
  have hConfig : s.client.config = config := config_after _ before
  have hStep := rateCalls_step
    (asks_after habits_keepRate (asks_opened _ config modems scene) before) step
  rwa [show ((opened config modems scene).after before).client.config = config from hConfig]
    at hStep

/-- What a run has for its start sets no rate, and what it has for a step what the step sets. -/
theorem rateCalls_run {config : Config} {world : Bus.World} {steps : List Step} {i : Nat}
    {entry : Entry} (h : (run config (some world) steps)[i]? = some entry) :
    rateCalls entry.calls = [] ∨ ∃ j target tag name path, i = j + 1 ∧
      ((steps[j]? = some (.call target tag name .signal) ∧
          rateCalls entry.calls = [Modem.setupQuery path config.signalRefresh]) ∨
        ∃ interval, steps[j]? = some (.call target tag name (.observeSignal interval)) ∧
          rateCalls entry.calls = [Modem.setupQuery path interval]) := by
  rcases entry_cases h with hStart | ⟨j, modems, scene, step, rfl, hStep, rfl⟩
  · obtain ⟨more, hMore, hAll⟩ := Scene.grows_run habits_keepRate.start true ⟨world, [], []⟩
    rw [hStart, hMore]
    exact .inl (rateCalls_of_none hAll)
  · refine (rateCalls_after config modems scene (steps.take j) step).imp_right ?_
    rintro ⟨target, tag, name, m, -, ⟨rfl, hOne⟩ | ⟨interval, rfl, hOne⟩⟩
    · exact ⟨j, target, tag, name, m.path, rfl, .inl ⟨hStep, hOne⟩⟩
    · exact ⟨j, target, tag, name, m.path, rfl, .inr ⟨interval, hStep, hOne⟩⟩

/-- **Signal reports are turned on when they are needed, and never off.** The rate for a duration of
any length is that of its whole seconds, and not zero. Whatever the replies are, a modem that is
asked for its signal quality and whose rate was read has the configured rate set right after that
if it was zero, and in no other case, and everything else is asked later; a modem whose signal
quality is to be observed has the rate of the observer set before signals are asked for, and once if
the preparation succeeds. In a session the rate is set by these two calls only, at most once in a
step, on the modem that the call is for. -/
theorem signal_reports_stay_on :
    (∀ nanoseconds, refreshSeconds (nanoseconds / 10 ^ 6) ≠ 0 ∧
      (refreshSeconds (nanoseconds / 10 ^ 6)).toNat =
        max 1 (min (nanoseconds / 10 ^ 9) (2 ^ 32 - 1))) ∧
    (∀ path config asked told x, Course (Modem.signal path config) asked told x →
      (asked <+: [Modem.stateQuery path, Modem.rateQuery path] ∧
        (x = none ∨ ∀ rate, told[1]? ≠ some (.ok [.uint32 rate]))) ∨
      ∃ code rate later more, told = .ok [.int32 code] :: .ok [.uint32 rate] :: more ∧
        asked = Modem.stateQuery path :: Modem.rateQuery path ::
          ((if rate = 0 then [Modem.setupQuery path config.signalRefresh] else []) ++ later) ∧
        ∀ q ∈ later, ¬ q.SetsRate) ∧
    (∀ path interval asked told x, Course (Modem.watchSignal path interval) asked told x →
      let whole := [Modem.stateQuery path, Modem.setupQuery path interval,
        .subscribe (.changes .modemManager path)]
      asked <+: whole ∧ ∀ watch, x = some (.ok watch) → asked = whole) ∧
    (∀ config modems scene before step,
      let s := (opened config modems scene).after before
      let set := rateCalls (s.step step).2.calls
      set = [] ∨ ∃ target tag name m, s.held? target = some (.modem m) ∧
        ((step = .call target tag name .signal ∧
            set = [Modem.setupQuery m.path config.signalRefresh]) ∨
          ∃ interval, step = .call target tag name (.observeSignal interval) ∧
            set = [Modem.setupQuery m.path interval])) ∧
    ∀ config world steps i entry, (run config (some world) steps)[i]? = some entry →
      rateCalls entry.calls = [] ∨ ∃ j target tag name path, i = j + 1 ∧
        ((steps[j]? = some (.call target tag name .signal) ∧
            rateCalls entry.calls = [Modem.setupQuery path config.signalRefresh]) ∨
          ∃ interval, steps[j]? = some (.call target tag name (.observeSignal interval)) ∧
            rateCalls entry.calls = [Modem.setupQuery path interval]) :=
  ⟨fun nanoseconds => ⟨refreshSeconds_ne_zero _, toNat_refreshSeconds_div nanoseconds⟩,
    fun _ _ _ _ _ h => Modem.course_signal h, fun _ _ _ _ _ h => Modem.course_watchSignal h,
    rateCalls_after, fun _ _ _ _ _ h => rateCalls_run h⟩

/-- A modem that does not report. -/
def silentModem : Query → Bus.Reply
  | .get _ _ _ "State" => .ok [.int32 8]
  | .get _ _ _ "Rate" => .ok [.uint32 0]
  | .get _ _ _ "AccessTechnologies" => .ok [.uint32 0x4000]
  | .get _ _ _ "Lte" => .ok [.dictionary []]
  | .call _ _ _ "Setup" _ => .ok []
  | .subscribe _ => .ok [.boolean true]
  | _ => .error .notAnInterface

/-- Two seconds and a half count as two, and a fifth of a second counts as one. -/
theorem signal_reports_turned_on :
    let path := "/org/freedesktop/ModemManager1/Modem/0"
    let setup (seconds : UInt32) : Query :=
      .call .modemManager path Interface.signal "Setup" [.uint32 seconds]
    let quality := (Modem.signal path { signalRefresh := 2500 }).run
      (fun _ q => (silentModem q, ())) true ()
    let watch := (Modem.watchSignal path 200).run (fun _ q => (silentModem q, ())) true ()
    (∃ later, quality.trace.map Prod.fst = Modem.stateQuery path :: Modem.rateQuery path ::
        setup 2 :: later ∧ ∀ q ∈ later, ¬ q.SetsRate) ∧
      watch.trace.map Prod.fst =
        [Modem.stateQuery path, setup 1, .subscribe (.changes .modemManager path)] := by
  intro path setup quality watch
  obtain ⟨-, hSignal, hWatch, -⟩ := signal_reports_stay_on
  constructor
  · have hTold : ∃ more, quality.trace.map Prod.snd =
        .ok [.int32 8] :: .ok [.uint32 0] :: more := ⟨_, rfl⟩
    obtain ⟨more, hTold⟩ := hTold
    rcases hSignal path _ _ _ _ (Program.course_run _ _ _ _) with
      ⟨-, hNone | hUnread⟩ | ⟨code, rate, later, more', hReplies, hAsked, hLater⟩
    · cases hNone
    · exact absurd (congrArg (·[1]?) hTold) (hUnread 0)
    · obtain rfl : rate = 0 := by
        have hSecond := congrArg (·[1]?) (hReplies.symm.trans hTold)
        simpa using hSecond
      exact ⟨later, hAsked, hLater⟩
  · exact (hWatch path _ _ _ _ (Program.course_run _ _ _ _)).2 _ rfl

end Session

end ModemLink
