import ModemLink.Proofs.Session.Guard
import ModemLink.Proofs.Session.Watchers

/-!
# What is reported of a modem

An observer of the signal quality or of the location is told what the modem says after every signal
that the properties concerned have changed, and nothing else.

* `Watch.Names`: the properties that a signal says have changed.
* `Modem.SignalReport`, `Modem.signal_observer_tells_reports`: the signal quality.
* `Modem.LocationReport`, `Modem.location_observer_agrees`: the location, which is the one that is
  told when it is asked for.
-/

namespace ModemLink

open Bus (Value Query Reply Interface.modem Interface.signal Interface.location)
open Observer (Work)

/-! ## Changed properties -/

namespace Watch

/-- A signal about changed properties names a property of an interface, with its new value or
without. -/
def Names (interface name : String) (body : List Value) : Prop :=
  ∃ values invalidated, body = [.string interface, .dictionary values, .strings invalidated] ∧
    (name ∈ values.map Prod.fst ∨ name ∈ invalidated)

theorem mem_distinct {seen names : List String} {name : String} :
    name ∈ distinct seen names ↔ name ∈ names ∧ name ∉ seen := by
  induction names generalizing seen with
  | nil => simp [distinct]
  | cons first rest ih =>
    unfold distinct
    by_cases hFirst : name = first
    · subst hFirst
      split <;> simp_all
    · split <;> simp [ih, hFirst]

/-- What the new values are and how often a name stands there does not matter. -/
theorem names_iff {interface name : String} {body : List Value} :
    Names interface name body ↔ ∃ names, changedNames? interface body = some names ∧
      name ∈ names := by
  constructor
  · rintro ⟨values, invalidated, rfl, hNamed⟩
    refine ⟨_, if_pos rfl, ?_⟩
    rw [List.mem_append, mem_distinct]
    by_cases hChanged : name ∈ values.map Prod.fst
    · exact .inl hChanged
    · exact .inr ⟨hNamed.resolve_left hChanged, hChanged⟩
  · rintro ⟨names, hNames, hMem⟩
    unfold changedNames? at hNames
    split at hNames
    · rename_i changed values invalidated
      split at hNames
      · rename_i hInterface
        obtain rfl := Option.some.inj hNames
        refine ⟨values, invalidated, hInterface ▸ rfl, ?_⟩
        rw [List.mem_append, mem_distinct] at hMem
        exact hMem.imp_right And.left
      · cases hNames
    · cases hNames

theorem names_iff_contains {interface name : String} {body : List Value} {names : List String}
    (h : changedNames? interface body = some names) :
    Names interface name body ↔ names.contains name = true := by
  rw [names_iff, List.contains_iff_mem]
  refine ⟨fun ⟨names', hNames', hMem⟩ => ?_, fun hMem => ⟨names, h, hMem⟩⟩
  rwa [Option.some.inj (h.symm.trans hNames')]

theorem not_names {interface : String} {body : List Value}
    (h : changedNames? interface body = none) (name : String) : ¬ Names interface name body := by
  intro hNamed
  obtain ⟨names, hSome, -⟩ := names_iff.mp hNamed
  rw [h] at hSome
  cases hSome

/-- A watch of changed properties tells what the changed names lead to, and nothing of bodies
without such names. -/
theorem tells_ofChanges {subscription : Option Bus.Subscription} {interface : String}
    {react : List String → List (Request Notification)} {k : Nat}
    {part : List Value → List (Query × Reply) → List Notification → Prop}
    (hNeeds : ∀ names, Work.Needs (react names) k)
    (hNone : ∀ body, (∀ name, ¬ Names interface name body) → part body [] [])
    (hSome : ∀ body names exchanges told, changedNames? interface body = some names →
      Work.Exchanged (react names) exchanges told [] → part body exchanges told) :
    (ofChanges subscription interface react).Tells part := by
  have hReact : ∀ body, (ofChanges subscription interface react).react body =
      ((changedNames? interface body).map react).getD [] := fun _ => rfl
  refine tells_of_parts (k := k) (fun body => ?_) fun body exchanges told h => ?_
  · rw [hReact]
    cases changedNames? interface body with
    | none => trivial
    | some names => exact hNeeds names
  · rw [hReact] at h
    cases hNames : changedNames? interface body with
    | none =>
      rw [hNames] at h
      cases h
      exact hNone body (not_names hNames)
    | some names =>
      rw [hNames] at h
      exact hSome body names exchanges told hNames h

end Watch

/-! ## Readings of the bus -/

namespace Observer.Work

variable {α ε : Type} {exchanges : List (Query × Reply)} {told : List ε}
  {rest left : List (Request ε)}

/-- A reading that begins with a question goes on with what the reply holds, if it is of the
declared type. -/
theorem Exchanged.of_asking {q : Query} {type : Bus.BodyType α} {failure : Bus.Fault → Error}
    {f : α → Request ε}
    (h : Exchanged ((Request.asking q type failure).bind f :: rest) exchanges told []) :
    ∃ r later, exchanges = (q, r) :: later ∧
      ((∃ fault, r.content type = .error fault) ∧ Exchanged rest later told [] ∨
        ∃ a, r.content type = .ok a ∧ Exchanged (f a :: rest) later told []) := by
  cases h with
  | replied r h =>
    refine ⟨r, _, rfl, ?_⟩
    cases hContent : r.content type with
    | error fault =>
      simp only [hContent] at h
      cases h with
      | failed _ h => exact .inl ⟨⟨fault, rfl⟩, h⟩
    | ok a =>
      simp only [hContent] at h
      exact .inr ⟨a, rfl, h⟩

theorem Exchanged.of_ofExcept {x : Except Error α} {f : α → Request ε}
    (h : Exchanged ((Program.ofExcept x).bind f :: rest) exchanges told []) :
    (∃ e, x = .error e) ∧ Exchanged rest exchanges told [] ∨
      ∃ a, x = .ok a ∧ Exchanged (f a :: rest) exchanges told [] := by
  cases x with
  | error e =>
    cases h with
    | failed _ h => exact .inl ⟨⟨e, rfl⟩, h⟩
  | ok a => exact .inr ⟨a, rfl, h⟩

end Observer.Work

namespace Modem

/-! ## Signal quality -/

/-- The question for the signal values of a generation. -/
def signalQuery (path : String) (g : Generation) : Query :=
  .get .modemManager path Interface.signal (reportName g)

/-- The record in a reply to this question. -/
def signalIn (g : Generation) (r : Reply) : Except Error Signal :=
  ((r.content (.single .dictionary)).mapError fun f => .bus f.standard).bind fun report =>
    Signal.decode (.ofBus report) g.technology

/-- What a signal leads to that may concern the values of a generation: if it names them they are
read, and what can be decoded is told. -/
inductive GenerationReport (path : String) (g : Generation) (body : List Value) :
    List (Query × Reply) → List Notification → Prop
  | unnamed (h : ¬ Watch.Names Interface.signal (reportName g) body) :
      GenerationReport path g body [] []
  | unreadable (h : Watch.Names Interface.signal (reportName g) body) {r : Reply} {e : Error}
      (hSignal : signalIn g r = .error e) :
      GenerationReport path g body [(signalQuery path g, r)] []
  | told (h : Watch.Names Interface.signal (reportName g) body) {r : Reply} {s : Signal}
      (hSignal : signalIn g r = .ok s) :
      GenerationReport path g body [(signalQuery path g, r)] [.signal s]

/-- What a signal leads to: the values of the fourth generation come first. -/
def SignalReport (path : String) (body : List Value) (exchanges : List (Query × Reply))
    (told : List Notification) : Prop :=
  ∃ lte nr toldLte toldNr, exchanges = lte ++ nr ∧ told = toldLte ++ toldNr ∧
    GenerationReport path .lte body lte toldLte ∧ GenerationReport path .nr5g body nr toldNr

/-- The reading of the values of a generation. -/
def signalReading (path : String) (g : Generation) : Request Notification :=
  (readSignal path g).bind fun s => .done (.signal s)

theorem onSignalChange_eq (path : String) (names : List String) :
    onSignalChange path names =
      (if names.contains (reportName .lte) then [signalReading path .lte] else []) ++
        if names.contains (reportName .nr5g) then [signalReading path .nr5g] else [] := by
  unfold onSignalChange reported
  cases hLte : names.contains (reportName .lte) <;>
    cases hNr : names.contains (reportName .nr5g) <;>
    simp only [List.filter_cons, List.filter_nil, hLte, hNr] <;> rfl

theorem generationReport_of_exchanged {path : String} {g : Generation} {body : List Value}
    {names : List String} {exchanges : List (Query × Reply)} {told : List Notification}
    (hNames : Watch.changedNames? Interface.signal body = some names)
    (h : Work.Exchanged (if names.contains (reportName g) then [signalReading path g] else [])
      exchanges told []) : GenerationReport path g body exchanges told := by
  split at h
  · rename_i hContains
    have hNamed := (Watch.names_iff_contains hNames).mpr hContains
    have hReading : signalReading path g =
        (Request.asking (signalQuery path g) (.single .dictionary) fun f => .bus f.standard).bind
          fun report => (Program.ofExcept (Signal.decode (.ofBus report) g.technology)).bind
            fun s => .done (.signal s) := Program.bind_assoc _ _ _
    rw [hReading] at h
    obtain ⟨r, later, rfl, ⟨⟨fault, hContent⟩, hRest⟩ | ⟨report, hContent, hRest⟩⟩ := h.of_asking
    · cases hRest
      exact .unreadable hNamed (by rw [signalIn, hContent]; rfl)
    · rcases hRest.of_ofExcept with ⟨⟨e, hDecoded⟩, hLeft⟩ | ⟨signal, hDecoded, hLeft⟩
      · cases hLeft
        exact .unreadable hNamed (by rw [signalIn, hContent]; exact hDecoded)
      · cases hLeft with
        | delivered _ hLeft =>
          cases hLeft
          exact .told hNamed (by rw [signalIn, hContent]; exact hDecoded)
  · rename_i hContains
    cases h
    exact .unnamed (mt (Watch.names_iff_contains hNames).mp hContains)

theorem signalReport_of_exchanged {path : String} {body : List Value} {names : List String}
    {exchanges : List (Query × Reply)} {told : List Notification}
    (hNames : Watch.changedNames? Interface.signal body = some names)
    (h : Work.Exchanged (onSignalChange path names) exchanges told []) :
    SignalReport path body exchanges told := by
  rw [onSignalChange_eq] at h
  obtain ⟨lte, nr, toldLte, toldNr, rfl, rfl, hLte, hNr⟩ := h.split
  exact ⟨lte, nr, toldLte, toldNr, rfl, rfl, generationReport_of_exchanged hNames hLte,
    generationReport_of_exchanged hNames hNr⟩

theorem needs_onSignalChange (path : String) (names : List String) :
    Work.Needs (onSignalChange path names) 2 := by
  have hReading : ∀ g, Work.Needs (if names.contains (reportName g) then [signalReading path g]
      else []) 1 := by
    intro g
    have hEnds : Program.Ends (fun _ => True) (signalReading path g) 1 :=
      Program.ends_bind (m := 0)
        (Program.ends_bind (m := 0) (Program.ends_asking _ _ _) (fun _ _ => trivial)
          fun _ _ => Program.ends_ofExcept _)
        (fun _ _ => trivial) fun _ _ => trivial
    split
    · exact ⟨1, Nat.le_refl 1, hEnds, trivial⟩
    · trivial
  rw [onSignalChange_eq]
  exact (hReading .lte).append (hReading .nr5g)

variable {σ : Type} {answer : σ → Query → Reply × σ} {linked : Bool} {s : σ}

theorem watchSignal_eq (path : String) (interval : Nat) :
    watchSignal path interval =
      ((require path (.atLeast .registered) "observe signal quality").bind fun _ =>
        Program.connection.bind fun _ => (setupSignal path interval).bind fun _ =>
          Program.connection).bind fun _ =>
        (Request.subscribe (.changes .modemManager path)).bind fun heard =>
          .done (.ofChanges heard Interface.signal (onSignalChange path)) := by
  simp only [watchSignal, Program.bind_eq, Program.bind_assoc]
  rfl

/-- **Observers of the signal quality tell exactly what is reported.** Such an observer hears the
signals about changed properties of the modem, if the bus knows somebody to send them. When it is
registered nothing is told. From then on every such signal leads to one reading for each generation
that it names, the fourth before the fifth, and to one record for each reading that succeeds and can
be decoded; a signal about another interface leads to nothing. A reading that fails changes nothing
for any other. -/
theorem signal_observer_tells_reports {path : String} {interval : Nat} {watch : Watch}
    (h : ((watchSignal path interval).run answer linked s).result = .ok watch) :
    (∃ taken, (.subscribe (.changes .modemManager path), .ok [.boolean taken]) ∈
        ((watchSignal path interval).run answer linked s).trace ∧
      watch.subscription = if taken then some (.changes .modemManager path) else none) ∧
      watch.Tells (SignalReport path) := by
  obtain ⟨taken, hTaken, rfl⟩ := Program.exists_taken (watchSignal_eq path interval) h
  exact ⟨⟨taken, hTaken, rfl⟩, Watch.tells_ofChanges (needs_onSignalChange path)
    (fun body hNone => ⟨[], [], [], [], rfl, rfl, .unnamed (hNone _), .unnamed (hNone _)⟩)
    fun body names exchanges told hNames hExchanged =>
      signalReport_of_exchanged hNames hExchanged⟩

/-- A bus with a registered modem in a cell of the fourth generation. -/
def registeredBus : Query → Reply
  | .get _ _ _ "State" => .ok [.int32 8]
  | .get _ _ _ "Lte" => .ok [.dictionary []]
  | .call _ _ _ "Setup" _ => .ok []
  | .subscribe _ => .ok [.boolean true]
  | _ => .error .notAnInterface

theorem signal_observer_tells_lte :
    let path := "/org/freedesktop/ModemManager1/Modem/0"
    let named : List Value := [.string Interface.signal, .dictionary [("Lte", .dictionary [])],
      .strings ["Nr5g", "Lte", "Nr5g"]]
    let other : List Value := [.string Interface.location, .dictionary [], .strings ["Lte"]]
    let heard (body : List Value) : Watcher.Arrival :=
      .heard path Bus.Interface.properties "PropertiesChanged" body
    let moves : List (Observer.Move Watcher Watcher.Arrival) :=
      [.arrived 0 (heard named), .polled 0 .work true, .arrived 0 (.answered registeredBus),
        .polled 0 .shutdown true, .arrived 0 (.answered registeredBus), .arrived 0 (heard other),
        .polled 0 .work true]
    ∃ watch, ((watchSignal path 5000).run (fun _ q => (registeredBus q, ())) true ()).result =
        .ok watch ∧
      let now := (Observer.Shared.fresh .silent).run Watcher.conduct
        (.registered (.ofWatch "quality" watch) :: moves)
      ∃ t, now.slot.tasks[0]? = some t ∧ t.status = .running ∧
        Watcher.Told (SignalReport path) [named, other] [registeredBus, registeredBus] true
          [.signal ⟨.lte, ∅⟩] := by
  intro path named other heard moves
  have hWatch : ((watchSignal path 5000).run (fun _ q => (registeredBus q, ())) true ()).result =
      .ok (.ofChanges (some (.changes .modemManager path)) Interface.signal
        (onSignalChange path)) := rfl
  refine ⟨_, hWatch, ?_⟩
  intro now
  have hRunning : now.slot.isRunning 0 = true := by
    subst now moves heard named other path
    with_unfolding_all rfl
  have hRests : (now.slot.tasks[0]?.any fun t => t.work.isIdle) = true := by
    subst now moves heard named other path
    with_unfolding_all rfl
  have hTold : Observer.toldAt 0 now.turns =
      [.signal ⟨.lte, ∅⟩].map fun n => ("quality", n) := by
    subst now moves heard named other path
    with_unfolding_all rfl
  exact (signal_observer_tells_reports hWatch).2.told_of_turns hRunning hRests hTold rfl rfl rfl

/-! ## Location -/

/-- The question for what the location sources tell. -/
def sourcesQuery (path : String) : Query :=
  .call .modemManager path Interface.location "GetLocation" []

/-- The question for the access technologies in use. -/
def accessQuery (path : String) : Query :=
  .get .modemManager path Interface.modem "AccessTechnologies"

/-- The text of the serving cell in a reply to the first question. -/
def textIn (r : Reply) : Except Error (Option String) :=
  ((r.content (.single .numbered)).mapError .bus).map areaText?

/-- The generation in a reply to the second one, if it is exactly one of those that have records. -/
def generationIn (r : Reply) : Except Error Generation :=
  ((r.content (.single .uint32)).mapError fun f => .bus f.standard).bind fun access =>
    (Technology.ofAccess access).generation

/-- The location in the text of the serving cell. -/
def locationIn (text : String) (g : Generation) : Option Location :=
  (AreaReport.parse? text).map fun r => ⟨g, .ofReport r⟩

/-- What a signal leads to that may concern the location: if it names it, the location is read, and
what is found in a text, in one generation, is told. -/
inductive LocationReport (path : String) (body : List Value) :
    List (Query × Reply) → List Notification → Prop
  | unnamed (h : ¬ Watch.Names Interface.location "Location" body) : LocationReport path body [] []
  | textless (h : Watch.Names Interface.location "Location" body) {sources : Reply}
      (hText : ∀ text, textIn sources ≠ .ok (some text)) :
      LocationReport path body [(sourcesQuery path, sources)] []
  | unplaced (h : Watch.Names Interface.location "Location" body) {sources access : Reply}
      {text : String} {e : Error} (hText : textIn sources = .ok (some text))
      (hGeneration : generationIn access = .error e) :
      LocationReport path body [(sourcesQuery path, sources), (accessQuery path, access)] []
  | told (h : Watch.Names Interface.location "Location" body) {sources access : Reply}
      {text : String} {g : Generation} (hText : textIn sources = .ok (some text))
      (hGeneration : generationIn access = .ok g) :
      LocationReport path body [(sourcesQuery path, sources), (accessQuery path, access)]
        [.location (locationIn text g)]

/-- The reading of the location. -/
def locationReading (path : String) : Request Notification :=
  (rereadLocation path).bind fun l => .done (.location l)

theorem ofReport_eq (text : String) (t : Technology) :
    Location.ofReport text t = t.generation.map (locationIn text) := by
  unfold Location.ofReport
  cases t.generation <;> rfl

theorem locationReport_of_reading {path : String} {body : List Value}
    {exchanges : List (Query × Reply)} {told : List Notification}
    (hNamed : Watch.Names Interface.location "Location" body)
    (h : Work.Exchanged [locationReading path] exchanges told []) :
    LocationReport path body exchanges told := by
  have hReading : locationReading path =
      (Request.asking (sourcesQuery path) (.single .numbered) .bus).bind _ :=
    Program.bind_assoc _ _ _
  rw [hReading] at h
  obtain ⟨sources, later, rfl, ⟨⟨fault, hSources⟩, hRest⟩ | ⟨entries, hSources, hRest⟩⟩ :=
    h.of_asking
  · cases hRest
    exact .textless hNamed (by simp [textIn, hSources, Except.mapError, Except.map])
  cases hText : areaText? entries with
  | none =>
    simp only [hText] at hRest
    cases hRest with
    | failed _ hRest =>
      cases hRest
      exact .textless hNamed (by simp [textIn, hSources, hText, Except.mapError, Except.map])
  | some text =>
    have hTextIn : textIn sources = .ok (some text) := by
      simp [textIn, hSources, hText, Except.mapError, Except.map]
    simp only [hText, Program.bind_eq, Program.bind_assoc] at hRest
    obtain ⟨access, later, rfl, ⟨⟨fault, hAccess⟩, hLast⟩ | ⟨bits, hAccess, hLast⟩⟩ :=
      hRest.of_asking
    · cases hLast
      exact .unplaced hNamed hTextIn (by rw [generationIn, hAccess]; rfl)
    · have hGenerationIn : generationIn access = (Technology.ofAccess bits).generation := by
        rw [generationIn, hAccess]
        rfl
      rw [ofReport_eq] at hLast
      cases hGeneration : (Technology.ofAccess bits).generation with
      | error e =>
        rw [hGeneration] at hLast
        cases hLast with
        | failed _ hLast =>
          cases hLast
          exact .unplaced hNamed hTextIn (hGenerationIn.trans hGeneration)
      | ok g =>
        rw [hGeneration] at hLast
        cases hLast with
        | delivered _ hLast =>
          cases hLast
          exact .told hNamed hTextIn (hGenerationIn.trans hGeneration)

theorem locationReport_of_exchanged {path : String} {body : List Value} {names : List String}
    {exchanges : List (Query × Reply)} {told : List Notification}
    (hNames : Watch.changedNames? Interface.location body = some names)
    (h : Work.Exchanged (onLocationChange path names) exchanges told []) :
    LocationReport path body exchanges told := by
  unfold onLocationChange at h
  split at h
  · rename_i hContains
    exact locationReport_of_reading ((Watch.names_iff_contains hNames).mpr hContains) h
  · rename_i hContains
    cases h
    exact .unnamed (mt (Watch.names_iff_contains hNames).mp hContains)

theorem needs_onLocationChange (path : String) (names : List String) :
    Work.Needs (onLocationChange path names) 2 := by
  have hReread : Program.Ends (fun _ => True) (rereadLocation path) 2 := by
    refine Program.ends_bind (n := 1) (m := 1) (Program.ends_asking _ _ _) (fun _ _ => trivial)
      fun sources _ => ?_
    split
    · trivial
    · exact Program.ends_bind (m := 0) (Program.ends_asking _ _ _) (fun _ _ => trivial)
        fun _ _ => Program.ends_ofExcept _
  have hEnds : Program.Ends (fun _ => True) (locationReading path) 2 :=
    Program.ends_bind (m := 0) hReread (fun _ _ => trivial) fun _ _ => trivial
  unfold onLocationChange
  split
  · exact ⟨2, Nat.le_refl 2, hEnds, trivial⟩
  · trivial

theorem watchLocation_eq (path : String) :
    watchLocation path =
      ((require path (.atLeast .registered) "observe cell location").bind fun _ =>
        Program.connection.bind fun _ =>
          (Request.command .modemManager path Interface.location "Setup"
            [.uint32 areaSource, .boolean true] .nothing
            (.operation "failed to enable 3GPP location source")).bind fun _ =>
          Program.connection).bind fun _ =>
        (Request.subscribe (.changes .modemManager path)).bind fun heard =>
          .done (.ofChanges heard Interface.location (onLocationChange path)) := by
  simp only [watchLocation, Program.bind_eq, Program.bind_assoc]
  rfl

/-- What the sources tell, as the location that is asked for. -/
def locate (path : String) (entries : List (UInt32 × Value)) : Request (Option Location) :=
  (areaText? entries).elim (.done none) fun text =>
    (technology path).bind fun t => .ofExcept (Location.ofReport text t)

theorem location_eq (path : String) :
    location path = (require path (.atLeast .registered) "access cell location").bind fun _ =>
      Program.connection.bind fun _ => (readSources path).bind (locate path) := by
  unfold location
  simp only [Program.bind_eq]
  refine congrArg _ (funext fun _ => congrArg _ (funext fun _ => congrArg _ ?_))
  funext entries
  rw [locate]
  cases areaText? entries <;> rfl

/-- What a registered modem tells when it is asked for its location. -/
theorem run_location {path : String} {code : Int32}
    (hState : (answer s (stateQuery path)).1 = .ok [.int32 code])
    (hRegistered : State.registered ≤ .ofCode code) :
    let state := answer s (stateQuery path)
    let sources := answer state.2 (sourcesQuery path)
    let access := answer sources.2 (accessQuery path)
    (location path).run answer true s =
      match textIn sources.1 with
      | .error e =>
        ⟨.error e, sources.2, [(stateQuery path, state.1), (sourcesQuery path, sources.1)]⟩
      | .ok none =>
        ⟨.ok none, sources.2, [(stateQuery path, state.1), (sourcesQuery path, sources.1)]⟩
      | .ok (some text) =>
        ⟨(generationIn access.1).map (locationIn text), access.2,
          [(stateQuery path, state.1), (sourcesQuery path, sources.1),
            (accessQuery path, access.1)]⟩ := by
  intro state sources access
  have hRequire : (require path (.atLeast .registered) "access cell location").run answer true s =
      ⟨.ok (), state.2, [(stateQuery path, state.1)]⟩ := by
    have hVerdict : verdict (.atLeast .registered) "access cell location" state.1 = .ok () := by
      rw [hState, verdict_of_code, Requirement.check]
      exact if_pos (Requirement.isMetBy_iff.mpr (.inl ⟨_, rfl, hRegistered⟩))
    rw [require_eq]
    simp only [Program.run, if_true, Program.run_ofExcept]
    rw [hVerdict]
  have hLocation : (location path).run answer true s =
      let rest := ((readSources path).bind (locate path)).run answer true state.2
      { rest with trace := (stateQuery path, state.1) :: rest.trace } := by
    rw [location_eq, Program.run_bind_of_ok (congrArg (·.result) hRequire), hRequire]
    rfl
  have hSources : (readSources path).run answer true state.2 =
      ⟨(sources.1.content (.single .numbered)).mapError .bus, sources.2,
        [(sourcesQuery path, sources.1)]⟩ := Program.run_asking _ _ _ _ _ _
  have hTechnology : (technology path).run answer true sources.2 =
      ⟨((access.1.content (.single .uint32)).mapError fun f => Error.bus f.standard).map
        Technology.ofAccess, access.2, [(accessQuery path, access.1)]⟩ := by
    have hAccess := Program.run_asking (accessQuery path) (.single .uint32)
      (fun f => Error.bus f.standard) answer true sources.2
    refine (Program.run_map _ _ _ _ _).trans ?_
    exact congrArg (fun o : Program.Outcome Query Reply UInt32 σ =>
      (⟨o.result.map Technology.ofAccess, o.state, o.trace⟩ : Program.Outcome _ _ _ _)) hAccess
  rw [hLocation]
  cases hContent : sources.1.content (.single .numbered) with
  | error f =>
    rw [hContent] at hSources
    rw [Program.run_bind_of_error (congrArg (·.result) hSources), hSources]
    simp [textIn, hContent, Except.mapError, Except.map]
  | ok entries =>
    rw [hContent] at hSources
    rw [Program.run_bind_of_ok (congrArg (·.result) hSources), hSources]
    cases hText : areaText? entries with
    | none =>
      simp [textIn, hContent, hText, Except.mapError, Except.map, locate, Program.run]
    | some text =>
      have hTextIn : textIn sources.1 = .ok (some text) := by
        simp [textIn, hContent, hText, Except.mapError, Except.map]
      simp only [hTextIn, locate, hText, Option.elim_some]
      cases hBits : access.1.content (.single .uint32) with
      | error f =>
        rw [hBits] at hTechnology
        rw [Program.run_bind_of_error (congrArg (·.result) hTechnology), hTechnology]
        simp [generationIn, hBits, Except.mapError, Except.map, Except.bind]
      | ok bits =>
        rw [hBits] at hTechnology
        rw [Program.run_bind_of_ok (congrArg (·.result) hTechnology), hTechnology]
        simp [Program.run_ofExcept, ofReport_eq, generationIn, hBits, Except.mapError, Except.bind]

/-- A modem that is asked for its location tells what an observer is told, if the replies are the
same. -/
theorem LocationReport.agrees {path : String} {body : List Value}
    {exchanges : List (Query × Reply)} {told : List Notification}
    (h : LocationReport path body exchanges told) {code : Int32}
    (hRegistered : State.registered ≤ .ofCode code)
    (hSame : ((location path).run answer true s).trace.map Prod.snd =
      .ok [.int32 code] :: exchanges.map Prod.snd) :
    let outcome := (location path).run answer true s
    (∀ l, told = [.location l] → outcome.result = .ok l) ∧
      ∀ l, outcome.result = .ok (some l) → told = [.location (some l)] := by
  obtain ⟨later, hFirst⟩ : ∃ later, ((location path).run answer true s).trace =
      (stateQuery path, (answer s (stateQuery path)).1) :: later := ⟨_, rfl⟩
  have hState : (answer s (stateQuery path)).1 = .ok [.int32 code] := by
    rw [hFirst] at hSame
    exact (List.cons.inj hSame).1
  have hRun := run_location hState hRegistered
  rw [hRun] at hSame ⊢
  -- In each case the number of replies tells what the observer has come to.
  generalize answer (answer s (stateQuery path)).2 (sourcesQuery path) = sources at hSame ⊢
  generalize answer sources.2 (accessQuery path) = access at hSame ⊢
  cases hText : textIn sources.1 with
  | error e =>
    simp only [hText] at hSame ⊢
    refine ⟨fun l hTold => ?_, nofun⟩
    cases h with
    | told => simp at hSame
    | _ => cases hTold
  | ok found =>
    cases found with
    | none =>
      simp only [hText] at hSame ⊢
      refine ⟨fun l hTold => ?_, nofun⟩
      cases h with
      | told => simp at hSame
      | _ => cases hTold
    | some text =>
      simp only [hText] at hSame ⊢
      cases h with
      | unnamed => simp at hSame
      | textless => simp at hSame
      | unplaced _ hText' hGeneration =>
        obtain ⟨-, -, hAccess⟩ : _ ∧ _ ∧ access.1 = _ := by simpa using hSame
        rw [hAccess, hGeneration]
        exact ⟨nofun, nofun⟩
      | @told _ _ _ text' g hText' hGeneration =>
        obtain ⟨-, hSources, hAccess⟩ : _ ∧ sources.1 = _ ∧ access.1 = _ := by simpa using hSame
        obtain rfl : text = text' := by simpa [hSources, hText'] using hText.symm
        rw [hAccess, hGeneration]
        refine ⟨fun l hTold => ?_, fun l hResult => ?_⟩
        · obtain rfl : locationIn text g = l := by simpa using hTold
          rfl
        · rw [Except.ok.inj hResult]

/-- **Observers of the location tell what the modem tells.** Such an observer hears the signals
about changed properties of the modem, if the bus knows somebody to send them. Every signal that
names the location leads to a question for it, and no other signal leads to anything. If the reply
has the text of the serving cell the technologies are asked for as well, and if they are exactly one
of the two generations the location in the text is told, which is none for a malformed text; in any
other case nothing is told, and nothing changes for later signals. A registered modem that is asked
for its location and gets the same replies tells what the observer is told. -/
theorem location_observer_agrees {path : String} {watch : Watch}
    (h : ((watchLocation path).run answer linked s).result = .ok watch) :
    (∃ taken, (.subscribe (.changes .modemManager path), .ok [.boolean taken]) ∈
        ((watchLocation path).run answer linked s).trace ∧
      watch.subscription = if taken then some (.changes .modemManager path) else none) ∧
      watch.Tells (LocationReport path) ∧
      ∀ body exchanges told, LocationReport path body exchanges told →
        ∀ (σ' : Type) (answer' : σ' → Query → Reply × σ') (s' : σ') code,
          let outcome := (location path).run answer' true s'
          State.registered ≤ .ofCode code →
          outcome.trace.map Prod.snd = .ok [.int32 code] :: exchanges.map Prod.snd →
          (∀ l, told = [.location l] → outcome.result = .ok l) ∧
            ∀ l, outcome.result = .ok (some l) → told = [.location (some l)] := by
  obtain ⟨taken, hTaken, rfl⟩ := Program.exists_taken (watchLocation_eq path) h
  have hTells : (Watch.ofChanges (if taken then some (.changes .modemManager path) else none)
      Interface.location (onLocationChange path)).Tells (LocationReport path) :=
    Watch.tells_ofChanges (needs_onLocationChange path) (fun body hNone => .unnamed (hNone _))
      fun body names exchanges told hNames hExchanged =>
        locationReport_of_exchanged hNames hExchanged
  exact ⟨⟨taken, hTaken, rfl⟩, hTells, fun body exchanges told hReport σ' answer' s' code
    hRegistered hSame => hReport.agrees hRegistered hSame⟩

/-- A bus with a registered modem that tells its cell. -/
def locatedBus : Query → Reply
  | .get _ _ _ "State" => .ok [.int32 8]
  | .get _ _ _ "AccessTechnologies" => .ok [.uint32 0x4000]
  | .call _ _ _ "GetLocation" _ => .ok [.numbered [(1, .string "310,26,FFFE,12BC14F,FFFE")]]
  | .call _ _ _ "Setup" _ => .ok []
  | .subscribe _ => .ok [.boolean true]
  | _ => .error .notAnInterface

/-- The location is named twice. The first time the modem does not tell it. -/
theorem location_observer_tells_cell :
    let path := "/org/freedesktop/ModemManager1/Modem/0"
    let named : List Value := [.string Interface.location, .dictionary [], .strings ["Location"]]
    let heard : Watcher.Arrival :=
      .heard path Bus.Interface.properties "PropertiesChanged" named
    let mute (_ : Query) : Reply := .error .notAnInterface
    let moves : List (Observer.Move Watcher Watcher.Arrival) :=
      [.arrived 0 heard, .polled 0 .work true, .arrived 0 heard, .arrived 0 (.answered mute),
        .polled 0 .work true, .arrived 0 (.answered locatedBus), .polled 0 .shutdown true,
        .arrived 0 (.answered locatedBus), .polled 0 .work true]
    let cell := locationIn "310,26,FFFE,12BC14F,FFFE" .lte
    cell.isSome = true ∧
      (∃ watch, ((watchLocation path).run (fun _ q => (locatedBus q, ())) true ()).result =
          .ok watch ∧
        let now := (Observer.Shared.fresh .silent).run Watcher.conduct
          (.registered (.ofWatch "place" watch) :: moves)
        ∃ t, now.slot.tasks[0]? = some t ∧ t.status = .running ∧
          Watcher.Told (LocationReport path) [named, named] [mute, locatedBus, locatedBus]
            true [.location cell]) ∧
      ((location path).run (fun _ q => (locatedBus q, ())) true ()).result = .ok cell := by
  intro path named heard mute moves cell
  have hWatch : ((watchLocation path).run (fun _ q => (locatedBus q, ())) true ()).result =
      .ok (.ofChanges (some (.changes .modemManager path)) Interface.location
        (onLocationChange path)) := rfl
  obtain ⟨-, hTells, hAgrees⟩ := location_observer_agrees hWatch
  refine ⟨by subst cell; decide, ⟨_, hWatch, ?_⟩, ?_⟩
  · intro now
    have hRunning : now.slot.isRunning 0 = true := by
      subst now moves heard named path mute
      with_unfolding_all rfl
    have hRests : (now.slot.tasks[0]?.any fun t => t.work.isIdle) = true := by
      subst now moves heard named path mute
      with_unfolding_all rfl
    have hTold : Observer.toldAt 0 now.turns =
        [.location cell].map fun n => ("place", n) := by
      subst now moves heard named path mute cell
      with_unfolding_all rfl
    exact hTells.told_of_turns hRunning hRests hTold rfl rfl rfl
  · have hReport : LocationReport path named
        [(sourcesQuery path, locatedBus (sourcesQuery path)),
          (accessQuery path, locatedBus (accessQuery path))] [.location cell] :=
      .told ⟨[], ["Location"], rfl, .inr List.mem_cons_self⟩ rfl rfl
    have hSame : ((location path).run (fun _ q => (locatedBus q, ())) true ()).trace.map Prod.snd =
        .ok [.int32 8] :: [locatedBus (sourcesQuery path), locatedBus (accessQuery path)] := by
      subst path
      with_unfolding_all rfl
    exact (hAgrees _ _ _ hReport Unit _ () 8 (by decide) hSame).1 cell rfl

end Modem

end ModemLink
