import ModemLink.Proofs.Program.Courses
import ModemLink.Session.Run

/-!
# The connection in use

A modem that is asked for its connection in use reads its bearers and then, one after the other and
in their order, whether they are connected. The first that is, or that does not say, is the last to
be asked.

* `Bearer.connectedQuery`, `Modem.bearersQuery`: the single readings.
* `Modem.course_firstActive_iff`: the step from one bearer to the next.
* `Modem.found_iff`, `Modem.none_iff`, `Modem.failed_iff`: the three ways to end.
* `Modem.first_connected_bearer`: whatever the readings tell, and whenever the manager goes.
-/

namespace ModemLink

open Bus (Query Reply Interface.modem Interface.bearer)
open Program (Course course_done_iff course_linked_asking_bind_iff mapError_eq_ok)

namespace Bearer

/-- The question whether a bearer is connected. -/
def connectedQuery (bearer : String) : Query :=
  .get .modemManager bearer Interface.bearer "Connected"

/-- What a reply to this question says. -/
def connectedIn (r : Reply) : Except Error Bool :=
  (r.content (.single .boolean)).mapError fun f => .bus f.standard

theorem connectedIn_eq_ok_iff {r : Reply} {b : Bool} :
    connectedIn r = .ok b ↔ r = .ok [.boolean b] := by
  refine ⟨fun h => Reply.content_boolean (mapError_eq_ok.mp h), ?_⟩
  rintro rfl
  rfl

end Bearer

namespace Modem

open Bearer (connectedQuery connectedIn connectedIn_eq_ok_iff)

/-! ## From one bearer to the next -/

section

variable {bearer : String} {rest bearers : List String} {asked : List Query}
  {told : List Reply} {x : Option (Except Error (Option String))}

/-- The first of some bearers is asked whether it is connected, if there still is a manager; then
the search is over or goes on with the others. -/
theorem course_firstActive_iff :
    Course (firstActive (bearer :: rest)) asked told x ↔
      (asked = [] ∧ told = [] ∧ (x = none ∨ x = some (.error .managerDropped))) ∨
      (asked = [connectedQuery bearer] ∧ told = [] ∧ x = none) ∨
      ∃ r later more, asked = connectedQuery bearer :: later ∧ told = r :: more ∧
        ((∃ e, connectedIn r = .error e ∧ later = [] ∧ more = [] ∧
            (x = none ∨ x = some (.error e))) ∨
          (connectedIn r = .ok true ∧ later = [] ∧ more = [] ∧
            (x = none ∨ x = some (.ok (some bearer)))) ∨
          (connectedIn r = .ok false ∧ Course (firstActive rest) later more x)) := by
  have hFirst : firstActive (bearer :: rest) =
      (Program.connection.bind fun _ => Request.asking (connectedQuery bearer) (.single .boolean)
        fun f => .bus f.standard).bind fun up =>
          if up then .done (some bearer) else firstActive rest := by
    rw [firstActive]
    refine congrArg (Program.bind _) (funext fun up => ?_)
    cases up <;> rfl
  rw [hFirst, course_linked_asking_bind_iff]
  simp only [Bool.exists_bool, Bool.false_eq_true, if_true, if_false, course_done_iff]
  refine or_congr_right (or_congr_right (exists_congr fun r => exists_congr fun later =>
    exists_congr fun more => and_congr_right fun _ => and_congr_right fun _ =>
      or_congr_right or_comm))

/-- A bearer is asked only when the one before it is not connected. -/
theorem asked_in_order (h : Course (firstActive bearers) asked told x) :
    asked <+: bearers.map connectedQuery ∧
      ∀ i, i + 1 < asked.length → told[i]? = some (.ok [.boolean false]) := by
  induction bearers generalizing asked told with
  | nil =>
    cases h <;> exact ⟨List.nil_prefix, nofun⟩
  | cons bearer rest ih =>
    rcases course_firstActive_iff.mp h with
      ⟨rfl, -, -⟩ | ⟨rfl, -, -⟩ | ⟨r, later, more, rfl, rfl, hNext⟩
    · exact ⟨List.nil_prefix, nofun⟩
    · exact ⟨List.prefix_append _ _, by simp⟩
    · rcases hNext with ⟨e, -, rfl, -⟩ | ⟨-, rfl, -⟩ | ⟨hReading, hRest⟩
      · exact ⟨List.prefix_append _ _, by simp⟩
      · exact ⟨List.prefix_append _ _, by simp⟩
      · obtain ⟨hPrefix, hBefore⟩ := ih hRest
        refine ⟨List.cons_prefix_cons.mpr ⟨rfl, hPrefix⟩, fun i hi => ?_⟩
        cases i with
        | zero => exact congrArg some (connectedIn_eq_ok_iff.mp hReading)
        | succ i => exact hBefore i (Nat.lt_of_succ_lt_succ hi)

/-! ## Ends -/

/-- What a search asks and is told at the bearers that are left, if it ends there. -/
inductive Stops : List String → List Query → List Reply → Except Error (Option String) → Prop
  | exhausted : Stops [] [] [] (.ok none)
  | connected (bearer : String) (rest : List String) :
      Stops (bearer :: rest) [connectedQuery bearer] [.ok [.boolean true]] (.ok (some bearer))
  | failed (bearer : String) (rest : List String) {r : Reply} {e : Error}
      (h : connectedIn r = .error e) :
      Stops (bearer :: rest) [connectedQuery bearer] [r] (.error e)
  /-- The manager is gone. -/
  | orphaned (bearer : String) (rest : List String) :
      Stops (bearer :: rest) [] [] (.error .managerDropped)

/-- The replies of bearers that are not connected. -/
def unconnected (bearers : List String) : List Reply := bearers.map fun _ => .ok [.boolean false]

/-- A search that has ended has gone past bearers that are not connected, to where it stops. -/
theorem course_iff_stops {x : Except Error (Option String)} :
    Course (firstActive bearers) asked told (some x) ↔
      ∃ before rest asked' told', bearers = before ++ rest ∧
        asked = before.map connectedQuery ++ asked' ∧ told = unconnected before ++ told' ∧
        Stops rest asked' told' x := by
  induction bearers generalizing asked told with
  | nil =>
    constructor
    · intro h
      cases h
      exact ⟨[], [], [], [], rfl, rfl, rfl, .exhausted⟩
    · rintro ⟨before, rest, asked', told', hBearers, rfl, rfl, h⟩
      obtain ⟨rfl, rfl⟩ := List.append_eq_nil_iff.mp hBearers.symm
      cases h
      exact .done none
  | cons bearer rest ih =>
    rw [course_firstActive_iff]
    constructor
    · rintro (⟨rfl, rfl, h⟩ | ⟨-, -, h⟩ | ⟨r, later, more, rfl, rfl, h⟩)
      · obtain rfl : x = .error .managerDropped := by simpa using h
        exact ⟨[], _, [], [], rfl, rfl, rfl, .orphaned bearer rest⟩
      · cases h
      rcases h with ⟨e, hReading, rfl, rfl, h⟩ | ⟨hReading, rfl, rfl, h⟩ | ⟨hReading, h⟩
      · obtain rfl : x = .error e := by simpa using h
        exact ⟨[], _, _, _, rfl, rfl, rfl, .failed bearer rest hReading⟩
      · obtain rfl : x = .ok (some bearer) := by simpa using h
        obtain rfl := connectedIn_eq_ok_iff.mp hReading
        exact ⟨[], _, _, _, rfl, rfl, rfl, .connected bearer rest⟩
      · obtain ⟨before, left, asked', told', rfl, rfl, rfl, hStops⟩ := ih.mp h
        obtain rfl := connectedIn_eq_ok_iff.mp hReading
        exact ⟨bearer :: before, left, asked', told', rfl, rfl, rfl, hStops⟩
    · rintro ⟨before, left, asked', told', hBearers, rfl, rfl, h⟩
      cases before with
      | nil =>
        obtain rfl : bearer :: rest = left := hBearers
        cases h with
        | connected =>
          exact .inr (.inr ⟨_, [], [], rfl, rfl, .inr (.inl ⟨rfl, rfl, rfl, .inr rfl⟩)⟩)
        | failed _ _ h =>
          exact .inr (.inr ⟨_, [], [], rfl, rfl, .inl ⟨_, h, rfl, rfl, .inr rfl⟩⟩)
        | orphaned => exact .inl ⟨rfl, rfl, .inr rfl⟩
      | cons first before =>
        obtain ⟨rfl, rfl⟩ := List.cons.inj hBearers
        exact .inr (.inr ⟨.ok [.boolean false], _, _, rfl, rfl,
          .inr (.inr ⟨rfl, ih.mpr ⟨before, left, asked', told', rfl, rfl, rfl, h⟩⟩)⟩)

theorem found_iff {found : String} :
    Course (firstActive bearers) asked told (some (.ok (some found))) ↔
      ∃ before after, bearers = before ++ found :: after ∧
        asked = (before ++ [found]).map connectedQuery ∧
        told = unconnected before ++ [.ok [.boolean true]] := by
  rw [course_iff_stops]
  constructor
  · rintro ⟨before, rest, asked', told', rfl, rfl, rfl, h⟩
    cases h with
    | connected _ after => exact ⟨before, after, rfl, by simp, rfl⟩
  · rintro ⟨before, after, rfl, rfl, rfl⟩
    exact ⟨before, _, _, _, rfl, by simp, rfl, .connected found after⟩

theorem none_iff : Course (firstActive bearers) asked told (some (.ok none)) ↔
    asked = bearers.map connectedQuery ∧ told = unconnected bearers := by
  rw [course_iff_stops]
  constructor
  · rintro ⟨before, rest, asked', told', rfl, rfl, rfl, h⟩
    cases h
    simp
  · rintro ⟨rfl, rfl⟩
    exact ⟨bearers, [], [], [], by simp, by simp, by simp, .exhausted⟩

theorem failed_iff {e : Error} : Course (firstActive bearers) asked told (some (.error e)) ↔
    ∃ before bearer after, bearers = before ++ bearer :: after ∧
      ((∃ r, connectedIn r = .error e ∧ asked = (before ++ [bearer]).map connectedQuery ∧
          told = unconnected before ++ [r]) ∨
        e = .managerDropped ∧ asked = before.map connectedQuery ∧ told = unconnected before) := by
  rw [course_iff_stops]
  constructor
  · rintro ⟨before, rest, asked', told', rfl, rfl, rfl, h⟩
    cases h with
    | failed bearer after hReading =>
      exact ⟨before, bearer, after, rfl, .inl ⟨_, hReading, by simp, rfl⟩⟩
    | orphaned bearer after => exact ⟨before, bearer, after, rfl, .inr ⟨rfl, by simp, by simp⟩⟩
  · rintro ⟨before, bearer, after, rfl, ⟨r, hReading, rfl, rfl⟩ | ⟨rfl, rfl, rfl⟩⟩
    · exact ⟨before, _, _, _, rfl, by simp, rfl, .failed bearer after hReading⟩
    · exact ⟨before, _, [], [], rfl, by simp, by simp, .orphaned bearer after⟩

end

/-! ## The whole operation -/

/-- The question for the bearers of a modem. -/
def bearersQuery (path : String) : Query := .get .modemManager path Interface.modem "Bearers"

/-- What a reply to this question says. -/
def bearersIn (r : Reply) : Except Error (List String) :=
  (r.content (.single .paths)).mapError fun f => .bus f.standard

theorem bearersIn_eq_ok_iff {r : Reply} {bearers : List String} :
    bearersIn r = .ok bearers ↔ r = .ok [.paths bearers] := by
  constructor
  · intro h
    obtain ⟨v, rfl, hRead⟩ := Reply.content_single.mp (mapError_eq_ok.mp h)
    cases v with
    | paths l => rw [Option.some.inj hRead]
    | _ => cases hRead
  · rintro rfl
    rfl

/-- The bearers are read, and searched if they could be read. -/
theorem course_activeConnection_iff {path : String} {asked : List Query} {told : List Reply}
    {x : Option (Except Error (Option String))} :
    Course (activeConnection path) asked told x ↔
      (asked = [] ∧ told = [] ∧ (x = none ∨ x = some (.error .managerDropped))) ∨
      (asked = [bearersQuery path] ∧ told = [] ∧ x = none) ∨
      (∃ r e, asked = [bearersQuery path] ∧ told = [r] ∧ bearersIn r = .error e ∧
        (x = none ∨ x = some (.error e))) ∨
      ∃ bearers later more, asked = bearersQuery path :: later ∧
        told = .ok [.paths bearers] :: more ∧ Course (firstActive bearers) later more x := by
  have hRead : activeConnection path =
      (Program.connection.bind fun _ => Request.asking (bearersQuery path) (.single .paths)
        fun f => .bus f.standard).bind firstActive := rfl
  rw [hRead, course_linked_asking_bind_iff]
  refine or_congr_right (or_congr_right ⟨?_, ?_⟩)
  · rintro ⟨r, later, more, rfl, rfl, ⟨e, hReading, rfl, rfl, hEnd⟩ | ⟨bearers, hReading, hRest⟩⟩
    · exact .inl ⟨r, e, rfl, rfl, hReading, hEnd⟩
    · obtain rfl := bearersIn_eq_ok_iff.mp hReading
      exact .inr ⟨bearers, later, more, rfl, rfl, hRest⟩
  · rintro (⟨r, e, rfl, rfl, hReading, hEnd⟩ | ⟨bearers, later, more, rfl, rfl, hRest⟩)
    · exact ⟨r, [], [], rfl, rfl, .inl ⟨e, hReading, rfl, rfl, hEnd⟩⟩
    · exact ⟨_, later, more, rfl, rfl, .inr ⟨bearers, rfl, hRest⟩⟩

theorem held_keepBearer (s : Session) (name path : String) :
    (s.keepBearer (some name) path).held? name = some (.bearer ⟨path, s.client.fresh⟩) :=
  List.lookup_cons_self

/-- A client that makes this call gets a handle to the bearer that was found. -/
theorem call_activeConnection {s : Session} {target : String} {m : Tracked Nat}
    (hHeld : s.held? target = some (.modem m)) (tag : String) (name : Option String) :
    s.call target tag name .activeConnection =
      let outcome := (activeConnection m.path).run Scene.ask s.client.isLinked s.scene
      let seen := { s with scene := outcome.state }
      match outcome.result with
      | .ok (some bearer) => (seen.keepBearer name bearer, .result (.bearer (some bearer)))
      | .ok none => (seen, .result (.bearer none))
      | .error e => (seen, .failed e) := by
  have hCall : (s.held? target).bind (fun h => s.callOn? h .activeConnection) =
      some ((activeConnection m.path).bind fun found => .done (.bearer found), m.handle) := by
    rw [hHeld]
    rfl
  simp only [Session.call, hCall, Session.request, Program.run_map]
  rcases (activeConnection m.path).run Scene.ask s.client.isLinked s.scene with
    ⟨⟨e⟩ | ⟨_ | found⟩, scene, trace⟩ <;> rfl

/-- **The connection in use is the first connected bearer.** A modem that is asked for it reads its
bearers, and if they cannot be read that is the error. Otherwise the bearers are asked in their
order whether they are connected, each after all before it have said no. Exactly if a bearer says
yes after all before it have said no it is found, and no other is asked; none is found exactly if
all have said no; and the search fails exactly if, after such a start, a bearer does not say or the
manager is gone. A client that makes the call gets a new handle to the bearer that is found. -/
theorem first_connected_bearer (path : String) :
    (∀ asked told x, Course (activeConnection path) asked told x ↔
      (asked = [] ∧ told = [] ∧ (x = none ∨ x = some (.error .managerDropped))) ∨
      (asked = [bearersQuery path] ∧ told = [] ∧ x = none) ∨
      (∃ r e, asked = [bearersQuery path] ∧ told = [r] ∧ bearersIn r = .error e ∧
        (x = none ∨ x = some (.error e))) ∨
      ∃ bearers later more, asked = bearersQuery path :: later ∧
        told = .ok [.paths bearers] :: more ∧ Course (firstActive bearers) later more x) ∧
    (∀ bearers asked told,
      (∀ x, Course (firstActive bearers) asked told x →
        asked <+: bearers.map connectedQuery ∧
          ∀ i, i + 1 < asked.length → told[i]? = some (.ok [.boolean false])) ∧
      (∀ found, Course (firstActive bearers) asked told (some (.ok (some found))) ↔
        ∃ before after, bearers = before ++ found :: after ∧
          asked = (before ++ [found]).map connectedQuery ∧
          told = unconnected before ++ [.ok [.boolean true]]) ∧
      (Course (firstActive bearers) asked told (some (.ok none)) ↔
        asked = bearers.map connectedQuery ∧ told = unconnected bearers) ∧
      ∀ e, Course (firstActive bearers) asked told (some (.error e)) ↔
        ∃ before bearer after, bearers = before ++ bearer :: after ∧
          ((∃ r, connectedIn r = .error e ∧ asked = (before ++ [bearer]).map connectedQuery ∧
              told = unconnected before ++ [r]) ∨
            e = .managerDropped ∧ asked = before.map connectedQuery ∧
              told = unconnected before)) ∧
    ∀ (s : Session) target tag name m, s.held? target = some (.modem m) → m.path = path →
      let outcome := (activeConnection path).run Scene.ask s.client.isLinked s.scene
      let seen := { s with scene := outcome.state }
      Course (activeConnection path) (outcome.trace.map Prod.fst) (outcome.trace.map Prod.snd)
        (some outcome.result) ∧
      (s.call target tag name .activeConnection =
        match outcome.result with
        | .ok (some bearer) => (seen.keepBearer name bearer, .result (.bearer (some bearer)))
        | .ok none => (seen, .result (.bearer none))
        | .error e => (seen, .failed e)) ∧
      ∀ bearer n, (seen.keepBearer (some n) bearer).held? n =
        some (.bearer ⟨bearer, s.client.fresh⟩) := by
  refine ⟨fun _ _ _ => course_activeConnection_iff, fun bearers asked told =>
    ⟨fun x h => asked_in_order h, fun found => found_iff, none_iff, fun e => failed_iff⟩, ?_⟩
  rintro s target tag name m hHeld rfl
  exact ⟨Program.course_run _ _ _ _, call_activeConnection hHeld tag name,
    fun bearer n => held_keepBearer _ n bearer⟩

/-- A bus with a modem that has three bearers, of which the first is not connected. The third would
not say. -/
def threeBearers : Bus.World :=
  let bearer (n : String) (connected : Bus.Content) : String × Bus.Interfaces :=
    ("/org/freedesktop/ModemManager1/Bearer/" ++ n,
      [(Interface.bearer, [("Connected", connected)])])
  let modem : String × Bus.Interfaces :=
    ("/org/freedesktop/ModemManager1/Modem/0", [(Interface.modem, [("Bearers", .value (.paths
      ["/org/freedesktop/ModemManager1/Bearer/0", "/org/freedesktop/ModemManager1/Bearer/1",
        "/org/freedesktop/ModemManager1/Bearer/2"]) false)])])
  ⟨true, false, [modem, bearer "0" (.value (.boolean false) false),
    bearer "1" (.value (.boolean true) false), bearer "2" (.refusal "org.example.Lost" none)], []⟩

/-- The second of three bearers is found, and the third is not asked. -/
theorem second_of_three_found :
    let path := "/org/freedesktop/ModemManager1/Modem/0"
    let first := "/org/freedesktop/ModemManager1/Bearer/0"
    let second := "/org/freedesktop/ModemManager1/Bearer/1"
    let s : Session := ⟨.ofModems {} [], ⟨threeBearers, [], []⟩, [("m", .modem ⟨path, 7⟩)]⟩
    let outcome := (activeConnection path).run Scene.ask s.client.isLinked s.scene
    outcome.trace.map Prod.fst =
        [bearersQuery path, connectedQuery first, connectedQuery second] ∧
      (s.call "m" "" (some "a") .activeConnection).2 = .result (.bearer (some second)) ∧
      (s.call "m" "" (some "a") .activeConnection).1.held? "a" = some (.bearer ⟨second, 0⟩) := by
  intro path first second s outcome
  obtain ⟨-, -, hCalls⟩ := first_connected_bearer path
  obtain ⟨-, hCall, hHeld⟩ := hCalls s "m" "" (some "a") ⟨path, 7⟩ rfl rfl
  have hResult : outcome.result = .ok (some second) := rfl
  rw [hCall]
  simp only [show ((activeConnection path).run Scene.ask s.client.isLinked s.scene).result = _ from
    hResult]
  exact ⟨rfl, trivial, hHeld second "a"⟩

end Modem

end ModemLink
