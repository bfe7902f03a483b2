import ModemLink.Handle.Call
import ModemLink.Proofs.Program.Courses

/-!
# What the manager means to a program

A program may look whether its manager still exists. Every operation of a handle looks before it
does anything else, and only such a look can make it fail with `managerDropped`: neither a fault on
the bus nor a record that cannot be decoded is taken for a manager that is gone.

* `Harmless`: results other than that failure; the results of all decoders.
* `FindsManager`: a program that, while the manager exists, ends in no other way.
* `NeedsManager`: a program that, moreover, does nothing at all without a manager.
* `Call.needsManager`: all operations of all handles.
-/

namespace ModemLink

/-- The result is not that the manager is gone. -/
def Harmless {α : Type} (x : Except Error α) : Prop := x ≠ .error .managerDropped

namespace Program

variable {Q R α β σ : Type}

/-- While the manager exists the program does not say that it is gone, whatever the replies are. -/
def FindsManager : Program Q R α → Prop
  | done _ => True
  | fail e => e ≠ .managerDropped
  | ask _ next => ∀ r, FindsManager (next r)
  | whetherLinked next => FindsManager (next true)

/-- The program can do nothing without a manager, and does not miss one that exists. -/
structure NeedsManager (p : Program Q R α) : Prop where
  refused : p.proceed false = .fail .managerDropped
  finds : p.FindsManager

theorem finds_bind {p : Program Q R α} {f : α → Program Q R β} (h : p.FindsManager)
    (hNext : ∀ a, (f a).FindsManager) : (p.bind f).FindsManager := by
  induction p with
  | done a => exact hNext a
  | fail e => exact h
  | ask q next ih => exact fun r => ih r (h r)
  | whetherLinked next ih => exact ih true h

theorem finds_ofExcept {x : Except Error α} (h : Harmless x) :
    (ofExcept x : Program Q R α).FindsManager := by
  cases x with
  | ok a => trivial
  | error e => exact fun hDropped => h (congrArg Except.error hDropped)

theorem finds_connection : (connection : Program Q R Unit).FindsManager := trivial

theorem finds_proceed {p : Program Q R α} (h : p.FindsManager) :
    (p.proceed true).FindsManager := by
  induction p with
  | done a => exact h
  | fail e => exact h
  | ask q next _ => exact h
  | whetherLinked next ih => exact ih true h

theorem needs_connection {p : Program Q R α} (h : p.FindsManager) :
    NeedsManager ((connection : Program Q R Unit).bind fun _ => p) :=
  ⟨rfl, finds_bind finds_connection fun _ => h⟩

theorem proceed_bind_of_fail {p : Program Q R α} {linked : Bool} {e : Error}
    (h : p.proceed linked = .fail e) (f : α → Program Q R β) :
    (p.bind f).proceed linked = .fail e := by
  induction p with
  | done a => cases h
  | fail e' =>
    cases h
    rfl
  | ask q next _ => cases h
  | whetherLinked next ih => exact ih linked h

namespace NeedsManager

variable {p : Program Q R α}

theorem bind (h : NeedsManager p) {f : α → Program Q R β} (hNext : ∀ a, (f a).FindsManager) :
    NeedsManager (p.bind f) :=
  ⟨proceed_bind_of_fail h.refused f, finds_bind h.finds hNext⟩

/-- A program that only makes something of the result of another one. -/
theorem map (h : NeedsManager p) (f : α → β) : NeedsManager (p.bind fun a => .done (f a)) :=
  h.bind fun _ => trivial

theorem run_unlinked (h : NeedsManager p) (answer : σ → Q → R × σ) (s : σ) :
    p.run answer false s = ⟨.error .managerDropped, s, []⟩ := by
  rw [← run_proceed, h.refused]
  rfl

end NeedsManager

theorem FindsManager.result {p : Program Q R α} (h : p.FindsManager) (answer : σ → Q → R × σ)
    (s : σ) : Harmless (p.run answer true s).result := by
  induction p generalizing s with
  | done a => exact nofun
  | fail e => exact fun hDropped => h (Except.error.inj hDropped)
  | ask q next ih => exact ih _ (h _) _
  | whetherLinked next ih => exact ih true h s

end Program

/-! ## Decoders -/

namespace Harmless

variable {α β : Type}

theorem ok (a : α) : Harmless (.ok a : Except Error α) := nofun

theorem error {e : Error} (h : e ≠ .managerDropped) : Harmless (.error e : Except Error α) :=
  fun hDropped => h (Except.error.inj hDropped)

theorem bind {x : Except Error α} {f : α → Except Error β} (h : Harmless x)
    (hNext : ∀ a, Harmless (f a)) : Harmless (x >>= f) := by
  cases x with
  | ok a => exact hNext a
  | error e => exact error fun hDropped => h (congrArg Except.error hDropped)

theorem foldlM {f : β → α → Except Error β} (h : ∀ b a, Harmless (f b a)) (l : List α) (b : β) :
    Harmless (l.foldlM f b) := by
  induction l generalizing b with
  | nil => exact ok b
  | cons a rest ih =>
    rw [List.foldlM_cons]
    exact (h b a).bind ih

theorem mapM {f : α → Except Error β} (h : ∀ a, Harmless (f a)) (l : List α) :
    Harmless (l.mapM f) := by
  induction l with
  | nil => exact ok []
  | cons a rest ih =>
    rw [List.mapM_cons]
    exact (h a).bind fun _ => ih.bind fun _ => ok _

theorem mapError {ε : Type} (x : Except ε α) {f : ε → Error} (h : ∀ e, f e ≠ .managerDropped) :
    Harmless (x.mapError f) := by
  cases x with
  | ok a => exact ok a
  | error e => exact error (h e)

end Harmless

section

variable {α : Type}

theorem Requirement.harmless_check (r : Requirement) (action : String) (actual : State) :
    Harmless (r.check action actual) := by
  unfold check
  split
  · exact .ok ()
  · exact .error nofun

theorem Technology.harmless_generation (t : Technology) : Harmless t.generation := by
  unfold generation
  split
  · exact .ok _
  · split
    · exact .ok _
    · exact .error nofun

theorem Hex.harmless_read (field value : String) : Harmless (read field value) := by
  unfold read
  split
  · exact .ok _
  · exact .error nofun

namespace Bag

variable (target source : Bag) (type : PropertyType) (key newKey : String)

theorem harmless_get : Harmless (source.get type key) := by
  unfold get
  split
  · exact .error nofun
  · split
    · exact .ok _
    · exact .error nofun

theorem harmless_getOptional? : Harmless (source.getOptional? type key) := by
  unfold getOptional?
  split
  · exact .ok _
  · split
    · exact .ok _
    · exact .error nofun

theorem harmless_copyAs : Harmless (target.copyAs source type key newKey) := by
  refine (source.harmless_getOptional? type key).bind fun value => ?_
  cases value <;> exact .ok _

theorem harmless_copy : Harmless (target.copy source type key) :=
  (target.harmless_copyAs source type key key).bind fun _ => .ok _

theorem harmless_copyHex : Harmless (target.copyHex source key newKey) := by
  rw [copyHex_eq_bind]
  refine (source.harmless_getOptional? .string key).bind fun value => ?_
  cases value with
  | none => exact .ok _
  | some text => exact (Hex.harmless_read key text).bind fun _ => .ok _

theorem harmless_copyHex16 : Harmless (target.copyHex16 source key newKey) := by
  rw [copyHex16_eq_bind]
  refine (source.harmless_getOptional? .string key).bind fun value => ?_
  cases value with
  | none => exact .ok _
  | some text =>
    refine (Hex.harmless_read key text).bind fun n => ?_
    split
    · exact .ok _
    · exact .error nofun

end Bag

theorem Signal.harmless_decodeValues (g : Generation) (raw : Bag) :
    Harmless (decodeValues g raw) :=
  .foldlM (fun values field => (values.harmless_copyAs raw .float field.1 field.2).bind
    fun _ => .ok _) _ _

theorem Signal.harmless_decode (raw : Bag) (t : Technology) : Harmless (decode raw t) :=
  t.harmless_generation.bind fun g => (harmless_decodeValues g raw).bind fun _ => .ok _

theorem CellLocation.harmless_decode (raw : Bag) : Harmless (decode raw) := by
  refine (raw.harmless_getOptional? .string "operator-id").bind fun plmn => ?_
  cases plmn <;>
    exact (Bag.harmless_copyHex _ raw "ci" "ci").bind fun values =>
      (values.harmless_copyHex raw "tac" "tac").bind fun _ => .ok _

theorem Location.harmless_ofReport (data : String) (t : Technology) :
    Harmless (ofReport data t) :=
  t.harmless_generation.bind fun _ => .ok _

theorem CellInfo.harmless_decodeAll (records : List Bag) : Harmless (decodeAll records) := by
  refine Harmless.bind (.mapM (fun raw => ?_) records) fun _ => .ok _
  refine (raw.harmless_get .uint32 "cell-type").bind fun cellType => ?_
  cases generationOf? cellType with
  | none => exact .ok _
  | some g =>
    refine Harmless.bind ?_ fun _ => .ok _
    refine (Bag.harmless_copy ∅ raw .bool "serving").bind fun values => ?_
    refine (values.harmless_copyHex raw "ci" "ci").bind fun values => ?_
    refine (values.harmless_copy raw .uint32 (channelKey g)).bind fun values => ?_
    refine (values.harmless_copyHex16 raw "physical-ci" "pci").bind fun values => ?_
    exact (Signal.harmless_decodeValues g raw).bind fun _ =>
      (CellLocation.harmless_decode raw).bind fun _ => .ok _

theorem NetworkTime.harmless_epochSeconds (time : String) : Harmless (epochSeconds time) := by
  unfold epochSeconds
  split
  · split
    · exact .ok _
    · exact .error nofun
  · exact .error nofun

theorem Credential.failureOf_ne (c : Credential) (fault : Bus.Fault) :
    c.failureOf fault ≠ .managerDropped := by
  unfold failureOf failure
  split
  · cases c <;> nofun
  · split <;> nofun

end

/-! ## Asking the bus -/

open Program (FindsManager NeedsManager needs_connection finds_bind finds_ofExcept)

namespace Request

variable {α : Type}

theorem finds_asking (q : Bus.Query) (type : Bus.BodyType α) {failure : Bus.Fault → Error}
    (h : ∀ f, failure f ≠ .managerDropped) : (asking q type failure).FindsManager :=
  fun _ => finds_ofExcept (.mapError _ h)

theorem finds_property (service : Bus.Service) (path interface name : String)
    (type : Bus.ValueType α) : (property service path interface name type).FindsManager :=
  finds_asking _ _ nofun

theorem finds_write (service : Bus.Service) (path interface name : String) (value : Bus.Value) :
    (write service path interface name value).FindsManager :=
  finds_asking _ _ nofun

theorem finds_subscribe (s : Bus.Subscription) : (subscribe s).FindsManager :=
  finds_bind (finds_asking _ _ nofun) fun _ => trivial

end Request

/-! ## Operations -/

namespace Modem

variable {α : Type} (path : String)

theorem needs_property (interface name : String) (type : Bus.ValueType α) :
    NeedsManager (property path interface name type) :=
  needs_connection (Request.finds_property _ _ _ _ _)

theorem needs_command (interface member : String) (arguments : List Bus.Value)
    (reply : Bus.BodyType α) {failure : Bus.Fault → Error}
    (h : ∀ f, failure f ≠ .managerDropped) :
    NeedsManager (command path interface member arguments reply failure) :=
  needs_connection (Request.finds_asking _ _ h)

theorem needs_imei : NeedsManager (imei path) := needs_property path _ _ _

theorem needs_reset : NeedsManager (reset path) := needs_command path _ _ _ _ (by nofun)

theorem needs_state : NeedsManager (state path) := (needs_property path _ _ _).map _

theorem needs_require (r : Requirement) (action : String) :
    NeedsManager (require path r action) :=
  (needs_state path).bind fun actual => finds_ofExcept (r.harmless_check action actual)

theorem needs_lockState : NeedsManager (lockState path) := (needs_property path _ _ _).map _

theorem needs_technology : NeedsManager (technology path) := (needs_property path _ _ _).map _

theorem needs_setPowerState (p : PowerState) : NeedsManager (setPowerState path p) :=
  (needs_require path _ _).bind fun _ => (needs_command path _ _ _ _ (by nofun)).finds

theorem finds_firstActive (bearers : List String) : (firstActive bearers).FindsManager := by
  induction bearers with
  | nil => trivial
  | cons bearer rest ih =>
    refine finds_bind (needs_connection (Request.finds_property _ _ _ _ _)).finds fun isActive => ?_
    cases isActive with
    | true => trivial
    | false => exact ih

theorem needs_connect (apn : String) (ipType : IpType) : NeedsManager (connect path apn ipType) :=
  (needs_command path _ _ _ _ (by nofun)).bind fun _ =>
    finds_bind (needs_connection (Request.finds_asking _ _ (by nofun))).finds fun _ => trivial

theorem finds_readSignal (g : Generation) : (readSignal path g).FindsManager :=
  finds_bind (Request.finds_property _ _ _ _ _) fun _ => finds_ofExcept (Signal.harmless_decode _ _)

theorem needs_signal (config : Config) : NeedsManager (signal path config) := by
  have hRead : ((technology path).bind fun t =>
      (Program.ofExcept t.generation).bind fun g => readSignal path g).FindsManager :=
    finds_bind (needs_technology path).finds fun t =>
      finds_bind (finds_ofExcept t.harmless_generation) fun g => finds_readSignal path g
  refine (needs_require path _ _).bind fun _ => ?_
  refine (needs_connection (finds_bind (Request.finds_property _ _ _ _ _) fun rate => ?_)).finds
  split
  · exact finds_bind (Request.finds_asking _ _ (by nofun)) fun _ => hRead
  · exact hRead

theorem needs_cellInfo : NeedsManager (cellInfo path) :=
  (needs_command path _ _ _ _ (by nofun)).bind fun _ =>
    finds_ofExcept (CellInfo.harmless_decodeAll _)

theorem needs_location : NeedsManager (location path) := by
  refine (needs_require path _ _).bind fun _ => ?_
  refine (needs_connection
    (finds_bind (Request.finds_asking _ _ (by nofun)) fun sources => ?_)).finds
  cases areaText? sources with
  | none => trivial
  | some text =>
    exact finds_bind (needs_technology path).finds fun t =>
      finds_ofExcept (Location.harmless_ofReport text t)

theorem needs_networkTime : NeedsManager (networkTime path) :=
  (needs_require path _ _).bind fun _ => (needs_command path _ _ _ _ (by nofun)).finds

/-- Asking for signals, after which a watch is described. -/
theorem needs_watch (s : Bus.Subscription) (f : Option Bus.Subscription → Watch) :
    NeedsManager ((Program.connection : Request Unit).bind fun _ =>
      (Request.subscribe s).bind fun s => .done (f s)) :=
  needs_connection (finds_bind (Request.finds_subscribe s) fun _ => trivial)

theorem needs_watchState : NeedsManager (watchState path) := needs_watch _ _

theorem needs_watchSignal (interval : Nat) : NeedsManager (watchSignal path interval) :=
  (needs_require path _ _).bind fun _ =>
    (needs_connection (finds_bind (Request.finds_asking _ _ (by nofun)) fun _ =>
      (needs_watch _ _).finds)).finds

theorem needs_watchLocation : NeedsManager (watchLocation path) :=
  (needs_require path _ _).bind fun _ =>
    (needs_connection (finds_bind (Request.finds_asking _ _ (by nofun)) fun _ =>
      (needs_watch _ _).finds)).finds

end Modem

namespace Sim

variable {α : Type} (path : String)

theorem needs_property (name : String) (type : Bus.ValueType α) :
    NeedsManager (property path name type) :=
  needs_connection (Request.finds_property _ _ _ _ _)

theorem needs_unlock (member : String) (codes : List String) (credential : Credential) :
    NeedsManager (unlock path member codes credential) :=
  needs_connection (Request.finds_asking _ _ credential.failureOf_ne)

end Sim

namespace Bearer

variable {α : Type} (path : String)

theorem needs_property (name : String) (type : Bus.ValueType α) :
    NeedsManager (property path name type) :=
  needs_connection (Request.finds_property _ _ _ _ _)

theorem needs_settings : NeedsManager (settings path) := (needs_property path _ _).map _

theorem needs_apn : NeedsManager (apn path) :=
  (needs_settings path).bind fun raw => finds_ofExcept (raw.harmless_get .string _)

theorem needs_ipType : NeedsManager (ipType path) :=
  (needs_settings path).bind fun raw =>
    finds_bind (finds_ofExcept (raw.harmless_get .uint32 _)) fun _ => trivial

theorem needs_ipConfig (name : String) (family : IpType) :
    NeedsManager (ipConfig path name family) :=
  (needs_property path _ _).map _

theorem finds_devicePath (interface : String) : (Network.devicePath interface).FindsManager :=
  Request.finds_asking _ _ (by nofun)

theorem needs_trafficStats : NeedsManager (trafficStats path) := by
  refine (needs_property path _ _).bind fun interface => ?_
  refine (needs_connection (finds_bind (finds_devicePath interface) fun device => ?_)).finds
  exact finds_bind (Request.finds_property _ _ _ _ _) fun _ =>
    finds_bind (Request.finds_property _ _ _ _ _) fun _ => trivial

theorem finds_prepare (interface : String) (interval : UInt32) :
    (Traffic.prepare Network.provider interface interval).FindsManager := by
  refine finds_bind ?_ fun _ => ?_
  · exact finds_bind (finds_devicePath interface) fun _ => Request.finds_write _ _ _ _ _
  · exact finds_bind (finds_devicePath interface) fun _ => Request.finds_subscribe _

theorem needs_watchTraffic (interval : UInt32) : NeedsManager (watchTraffic path interval) := by
  refine (needs_property path _ _).bind fun interface => ?_
  refine (needs_connection (finds_bind (finds_prepare interface interval) fun _ => ?_)).finds
  trivial

end Bearer

namespace Call

variable {call : Call} {path : String} {p q : Request Result}

private theorem needsManager_of_some (hCall : some q = some p) (h : NeedsManager q) :
    NeedsManager p :=
  Option.some.inj hCall ▸ h

theorem needsManager_onModem {config : Config} (h : call.onModem? config path = some p) :
    NeedsManager p := by
  cases call with
  | manufacturer | model | imei | firmwareVersion | operatorPlmn | operatorName | connections =>
    exact needsManager_of_some h ((Modem.needs_property path _ _ _).map _)
  | phoneNumber | powerState | activeSim =>
    exact needsManager_of_some h (((Modem.needs_property path _ _ _).map _).map _)
  | state => exact needsManager_of_some h ((Modem.needs_state path).map _)
  | isEnabled | isRegistered | isConnected =>
    exact needsManager_of_some h (((Modem.needs_state path).map _).map _)
  | lockState => exact needsManager_of_some h ((Modem.needs_lockState path).map _)
  | isLocked => exact needsManager_of_some h (((Modem.needs_lockState path).map _).map _)
  | enable | reset =>
    exact needsManager_of_some h ((Modem.needs_command path _ _ _ _ (by nofun)).map _)
  | setPowerState power =>
    exact needsManager_of_some h ((Modem.needs_setPowerState path power).map _)
  | activeConnection =>
    exact needsManager_of_some h
      (((Modem.needs_property path _ _ _).bind fun bearers =>
        Modem.finds_firstActive bearers).map _)
  | connect accessPoint family =>
    exact needsManager_of_some h ((Modem.needs_connect path accessPoint family).map _)
  | technology => exact needsManager_of_some h ((Modem.needs_technology path).map _)
  | signal => exact needsManager_of_some h ((Modem.needs_signal path config).map _)
  | cellInfo => exact needsManager_of_some h ((Modem.needs_cellInfo path).map _)
  | location => exact needsManager_of_some h ((Modem.needs_location path).map _)
  | networkTime => exact needsManager_of_some h ((Modem.needs_networkTime path).map _)
  | networkTimeEpoch =>
    exact needsManager_of_some h
      (((Modem.needs_networkTime path).bind fun time =>
        finds_ofExcept (NetworkTime.harmless_epochSeconds time)).map _)
  | observeState => exact needsManager_of_some h ((Modem.needs_watchState path).map _)
  | observeSignal interval =>
    exact needsManager_of_some h ((Modem.needs_watchSignal path interval).map _)
  | observeLocation => exact needsManager_of_some h ((Modem.needs_watchLocation path).map _)
  | _ => cases h

theorem needsManager_onSim (h : call.onSim? path = some p) : NeedsManager p := by
  cases call with
  | sendPin | sendPuk => exact needsManager_of_some h ((Sim.needs_unlock path _ _ _).map _)
  | isActive | imsi | iccid | homePlmn | operatorName =>
    exact needsManager_of_some h ((Sim.needs_property path _ _).map _)
  | _ => cases h

theorem needsManager_onBearer (h : call.onBearer? path = some p) : NeedsManager p := by
  cases call with
  | disconnect =>
    have hCommand : NeedsManager (Bearer.disconnect path) :=
      needs_connection (Request.finds_asking _ _ (by nofun))
    exact needsManager_of_some h (hCommand.map _)
  | isActive | interface => exact needsManager_of_some h ((Bearer.needs_property path _ _).map _)
  | apn => exact needsManager_of_some h ((Bearer.needs_apn path).map _)
  | ipType => exact needsManager_of_some h ((Bearer.needs_ipType path).map _)
  | ipv4Config | ipv6Config =>
    exact needsManager_of_some h ((Bearer.needs_ipConfig path _ _).map _)
  | trafficStats => exact needsManager_of_some h ((Bearer.needs_trafficStats path).map _)
  | observeTraffic interval =>
    exact needsManager_of_some h ((Bearer.needs_watchTraffic path interval).map _)
  | _ => cases h

end Call

end ModemLink
