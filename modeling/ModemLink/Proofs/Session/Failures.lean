import ModemLink.Proofs.Observer.Attempts
import ModemLink.Proofs.Observer.Ledger
import ModemLink.Proofs.Session.Watchers
import ModemLink.Traffic.Scripted

/-!
# Failed registrations

A call that observes prepares a watch by questions to the bus, and only when all of them were
answered well there is an observer to register. Whatever fails before that, the observer of before
is still there.

* `Session.call_of_failed`: what a call that fails does to a session.
* `Session.slot_call`: a call that observes is an attempt that nothing interrupts.
* `Observer.Attempts.goesOn_run`: the observer of before, while attempts fail.
* `Session.failed_registration_keeps_observer`: what holds of all failures.
-/

namespace ModemLink

/-! ## The observer of before -/

namespace Observer

variable {ι Q R W A β ν ε : Type}

namespace Shared

variable {k : Conduct W A β} {s : Shared W β}

/-- A task that is registered in a slot with an owner is the last one, and has not gone on yet. -/
theorem task_of_registered {before : Shared W β} {w : W}
    (h : s = before.step k (.registered w)) (hOwned : 0 < s.owners) :
    s.slot.tasks[s.slot.last]? = some (.start w) := by
  have hBefore : before.owners ≠ 0 := by
    intro hUnowned
    rw [h, Shared.owners_step _ hUnowned] at hOwned
    exact Nat.lt_irrefl 0 hOwned
  have hSlot : s.slot = before.slot.register w := by
    rw [h]
    exact congrArg Shared.slot (if_neg hBefore)
  have hLast : s.slot.last = before.slot.tasks.length := by simp [Slot.last, hSlot]
  rw [hLast, hSlot, Slot.getElem?_register_length]

theorem length_step_of_unregistered {m : Move W A} (h : ∀ w, m ≠ .registered w) :
    (step k s m).slot.tasks.length = s.slot.tasks.length := by
  rcases slot_step k s m with ⟨work, hMove, -⟩ | ⟨-, hSlot⟩ | ⟨g, place, -, -, hSlot⟩
  · exact absurd hMove (h work)
  · simp [hSlot, Slot.abandon]
  · simp [hSlot]

theorem length_run_of_unregistered {moves : List (Move W A)} (h : ∀ w, .registered w ∉ moves) :
    (run k s moves).slot.tasks.length = s.slot.tasks.length := by
  induction moves using List.reverseRecOn with
  | nil => rfl
  | append_singleton moves m ih =>
    have hLast : ∀ w, m ≠ .registered w := by
      rintro w rfl
      exact h w (by simp)
    have hBefore : ∀ w, .registered w ∉ moves := fun w hMem => h w (List.mem_append_left _ hMem)
    rw [run_concat, length_step_of_unregistered hLast, ih hBefore]

/-- Without registrations it is the last task that has all the turns. -/
theorem Single.turns_run_of_unregistered (h : Single s) {moves : List (Move W A)}
    (hNone : ∀ w, .registered w ∉ moves) :
    ∃ turns, (Shared.run k s moves).turns = s.turns ++ turns ∧
      ∀ turn ∈ turns, turn.place = s.slot.last := by
  obtain ⟨turns, hTurns, hRan⟩ := exists_turns k s moves
  refine ⟨turns, hTurns, fun turn hMem => ?_⟩
  obtain ⟨before, hPrefix, hRuns⟩ := hRan turn hMem
  have hPlace := (h.run before).last turn.place hRuns
  have hLength : (Shared.run k s before).slot.tasks.length = s.slot.tasks.length :=
    length_run_of_unregistered fun w hMem => hNone w (hPrefix.subset hMem)
  simp only [Slot.last]
  omega

end Shared

namespace Attempts

variable [DecidableEq ι] {Q' R' : Type}

/-- After some acts the slot still holds the observer that was registered last before them, and only
it has had turns. It runs until it has no work left, as long as the channel is open and somebody
owns the slot; as long as it runs its ledger has all that has arrived and all that it has told, and
each of its polls goes on until nothing is left to do or a reply is missing. -/
structure GoesOn (react : ν → List (Program Q R ε)) (s : Shared (Work Q R ν ε) ε)
    (acts : List (Act ι Q' R' (Work Q R ν ε) (Arrival ν R)))
    (y : Attempts ι Q' R' (Work Q R ν ε) ε) (t : Task (Work Q R ν ε)) (turns : List (Turn ε)) :
    Prop where
  last : y.shared.slot.last = s.slot.last
  task : y.shared.slot.tasks[s.slot.last]? = some t
  turns_eq : y.shared.turns = s.turns ++ turns
  alone : ∀ turn ∈ turns, turn.place = s.slot.last
  kept : y.shared.channel.isClosed = false → 0 < y.shared.owners →
    t.status = .running ∨ t.status = .finished ∧ t.work.isDone = true
  ledger : t.status = .running →
    Work.Ledger react ((acts.filterMap Act.move?).filterMap (Move.arrival? s.slot.last))
      (turns.flatMap Turn.told) t.work
  waits : ∀ linked, (t.work.poll linked).1.isIdle = true ∨
    ((t.work.poll linked).1.question?).isSome = true

/-- While attempts fail, the observer registered before them goes on. -/
theorem goesOn_run {s : Shared (Work Q R ν ε) ε} (hSingle : Shared.Single s)
    (hKept : Shared.Kept Work.conduct s) {react : ν → List (Program Q R ε)}
    (hTask : s.slot.tasks[s.slot.last]? = some (.start (.ofReact react)))
    {attempt? : ι → Option (Attempt Q' R' (Work Q R ν ε))}
    {acts : List (Act ι Q' R' (Work Q R ν ε) (Arrival ν R))} {y : Attempts ι Q' R' _ ε}
    (hRun : y = run Work.conduct ⟨s, attempt?⟩ acts)
    (hFail : ∀ i, y.attempt? i = some .registered → attempt? i = some .registered)
    (hOthers : ∀ w, .around (.registered w) ∉ acts) :
    ∃ t turns, GoesOn react s acts y t turns := by
  let moves := acts.filterMap Act.move?
  have hShared : y.shared = Shared.run Work.conduct s moves := by
    subst hRun
    exact shared_run hFail
  have hNone : ∀ w, .registered w ∉ moves := by
    intro w hMem
    obtain ⟨act, hAct, hMove⟩ := List.mem_filterMap.mp hMem
    cases act with
    | around m =>
      obtain rfl := Option.some.inj hMove
      exact hOthers w hAct
    | _ => cases hMove
  have hLength : y.shared.slot.tasks.length = s.slot.tasks.length :=
    hShared ▸ Shared.length_run_of_unregistered hNone
  have hLast : y.shared.slot.last = s.slot.last := congrArg (· - 1) hLength
  have hPlace : s.slot.last < y.shared.slot.tasks.length :=
    hLength ▸ (List.getElem?_eq_some_iff.mp hTask).1
  obtain ⟨t, hFound⟩ : ∃ t, y.shared.slot.tasks[s.slot.last]? = some t :=
    ⟨_, List.getElem?_eq_getElem hPlace⟩
  obtain ⟨turns, hTurns, hPlaces⟩ := hSingle.turns_run_of_unregistered hNone (k := Work.conduct)
  refine ⟨t, turns, hLast, hFound, hShared ▸ hTurns, hPlaces, fun hOpen hOwned => ?_,
    fun hRuns => ?_, t.work.poll_waits⟩
  · have hAfter : Shared.Kept Work.conduct y.shared := hShared ▸ hKept.run moves
    exact hAfter hOpen hOwned _ (hLast ▸ hFound)
  · rw [hShared] at hFound
    obtain ⟨turns', hTurns', hLedger⟩ := Shared.ledger_run hTask moves hFound hRuns
    obtain rfl : turns = turns' := List.append_cancel_left (hTurns.symm.trans hTurns')
    rwa [toldAt_of_forall hPlaces] at hLedger

end Attempts

end Observer

/-! ## Calls -/

namespace Traffic.Scripted

open Observer (Slot)

/-- A failed registration with a scripted provider leaves the slot as it is, but that the observer
in it may come to its end, and nobody else is told anything. -/
theorem register_of_error {slot : Slot Observed} {place : Nat} {script : Script} {e : Error}
    (h : (register slot place script).2.1 = .error e) :
    (script.settles = false → (register slot place script).1 = slot) ∧
      ∀ n stats, .delivered n stats ∈ (register slot place script).2.2 →
        ∃ o, slot.running? = some o ∧ o.place = n := by
  have hResult :
      ((prepare provider script.interface script.interval).run answer true script).result =
        .error e := by
    rw [← h]
    simp only [register]
    split
    · split <;> rfl
    · rfl
  have hAsked : ∀ (trace : List (Question × Reply)) n stats,
      Entry.delivered n stats ∉ trace.map fun t => .asked t.1 := by
    intro trace n stats hMem
    obtain ⟨t, -, hEq⟩ := List.mem_map.mp hMem
    cases hEq
  simp only [register, hResult]
  refine ⟨fun hStays => by simp [hStays], fun n stats hMem => ?_⟩
  split at hMem
  · split at hMem
    · rename_i o hRuns
      rcases List.mem_append.mp hMem with hOld | hLog
      · exact absurd hOld (hAsked _ n stats)
      · obtain ⟨x, -, hEq⟩ := List.mem_map.mp hLog
        cases x <;> cases hEq
        exact ⟨o, hRuns, rfl⟩
    · exact absurd hMem (hAsked _ n stats)
  · exact absurd hMem (hAsked _ n stats)

end Traffic.Scripted

open Observer (Act Arrival Attempt Attempts Conduct Move Shared Slot Turn Work)

namespace Session

variable {s : Session}

/-- A call that fails may have changed the bus, and has changed nothing else. -/
theorem call_of_failed {target tag : String} {name : Option String} {call : Call} {e : Error}
    (h : (s.call target tag name call).2 = .failed e) :
    ∃ world calls, (s.call target tag name call).1 =
      { s with scene := ⟨world, calls, s.scene.events⟩ } := by
  unfold Session.call at h ⊢
  split at h
  · cases h
  · rename_i p owner _
    have hEvents := s.scene.events_run p s.client.isLinked
    simp only [request] at h ⊢
    cases hResult : (p.run Scene.ask s.client.isLinked s.scene).result with
    | error e => exact ⟨_, _, by rw [← hEvents]⟩
    | ok r =>
      rw [hResult] at h
      exact absurd h (receive_ne owner tag name r e)

/-- A call that observes prepares a watch, and the watch is all that it gives. -/
theorem exists_watch {h : Held} {call : Call} {p : Request Call.Result} {owner : Nat}
    {kind : WatchKind} (hCall : s.callOn? h call = some (p, owner))
    (hKind : call.watchKind? = some kind) :
    ∃ prepare : Request Watch, p = prepare.bind fun w => .done (.watch kind w) := by
  cases call with
  | observeState | observeSignal interval | observeLocation | observeTraffic interval =>
    cases hKind
    cases h <;> cases hCall
    exact ⟨_, rfl⟩
  | _ => cases hKind

/-- A call that observes is an attempt to register in the slot of its handle that nothing
interrupts. -/
theorem slot_call {A β : Type} {target : String} {h : Held} {call : Call}
    {p : Request Call.Result} {owner : Nat} {kind : WatchKind} (hHeld : s.held? target = some h)
    (hCall : s.callOn? h call = some (p, owner)) (hKind : call.watchKind? = some kind)
    (tag : String) (name : Option String) (k : Conduct Watcher A β) {shared : Shared Watcher β}
    (hSlot : shared.slot = s.client.board.slot ⟨owner, kind⟩) (hOwned : shared.owners ≠ 0) :
    ∃ prepare : Request Watch, p = prepare.bind (fun w => .done (.watch kind w)) ∧
      ∃ trace, (Attempts.run k ⟨shared, fun _ => none⟩ (Attempts.atOnce ()
          (prepare.bind fun w => .done (.ofWatch tag w)) s.client.isLinked trace)).shared.slot =
        (s.call target tag name call).1.client.board.slot ⟨owner, kind⟩ := by
  obtain ⟨prepare, hPrepare⟩ := exists_watch hCall hKind
  let attempt : Request Watcher := prepare.bind fun w => .done (.ofWatch tag w)
  let trace := (attempt.run Scene.ask s.client.isLinked s.scene).trace
  refine ⟨prepare, hPrepare, trace, ?_⟩
  have hAttempt := (Attempts.run_atOnce (k := k) (x := ⟨shared, fun _ => none⟩) (i := ()) rfl hOwned
    attempt s.client.isLinked Scene.ask s.scene).shared
  have hBind : (s.held? target).bind (fun h => s.callOn? h call) = some (p, owner) := by
    rw [hHeld]
    exact hCall
  -- On both sides all depends on how the preparation of the watch ends on this bus.
  rw [hAttempt, Program.result_map]
  simp only [Session.call, hBind, request]
  rw [hPrepare, Program.result_map]
  cases (prepare.run Scene.ask s.client.isLinked s.scene).result with
  | error e => exact hSlot
  | ok w =>
    have hRegistered : (Shared.step k shared (.registered (.ofWatch tag w))).slot =
        shared.slot.register (.ofWatch tag w) :=
      congrArg Shared.slot (if_neg hOwned)
    have hBoard := Board.slot_register s.client.board ⟨owner, kind⟩ (.ofWatch tag w)
    rw [← hSlot] at hBoard
    exact hRegistered.trans hBoard.symm

/-- Nobody is told anything under the tag of a registration that has failed. -/
theorem silent_of_failed {target tag : String} {name : Option String} {call : Call} {e : Error}
    (hFailed : (s.step (.call target tag name call)).2.answer = .failed e)
    (hNone : ∀ key, ¬ s.client.board.Runs key tag) {later : List Step}
    (hOther : ∀ step ∈ later, step.tag? ≠ some tag) :
    ∀ entry ∈ s.runSteps (.call target tag name call :: later),
      ∀ told ∈ entry.events, told.1 ≠ tag := by
  obtain ⟨world, calls, hCalled⟩ := call_of_failed hFailed
  refine silent_of_act rfl ?_ hOther
  simp only [act]
  rw [hCalled]
  exact ⟨hNone, fun _ hTold => absurd hTold List.not_mem_nil⟩

/-- **A failed registration keeps the observer of before.** A call that fails, for whatever reason,
may have changed the bus and has changed nothing else in the session; nobody is told anything under
the tag that it was given. A failed registration with a scripted provider leaves the slot as it is,
and only the observer in it is told anything.

A call that observes is an attempt on the slot of its handle that nothing interrupts. Attempts may
be interrupted by anything, and one that does not register its observer might as well not have been
made: everything else around the slot is the same without its acts. An observer that is registered
goes on while attempts fail or are still under way, whatever happens but another registration. -/
theorem failed_registration_keeps_observer :
    (∀ (s : Session) target tag name call e, (s.call target tag name call).2 = .failed e →
      ∃ world calls, (s.call target tag name call).1 =
        { s with scene := ⟨world, calls, s.scene.events⟩ }) ∧
    (∀ (s : Session) target tag name call e later,
      (s.step (.call target tag name call)).2.answer = .failed e →
      (∀ key, ¬ s.client.board.Runs key tag) → (∀ step ∈ later, step.tag? ≠ some tag) →
      ∀ entry ∈ s.runSteps (.call target tag name call :: later),
        ∀ told ∈ entry.events, told.1 ≠ tag) ∧
    (∀ slot place script e, (Traffic.Scripted.register slot place script).2.1 = .error e →
      (script.settles = false → (Traffic.Scripted.register slot place script).1 = slot) ∧
        ∀ n stats, .delivered n stats ∈ (Traffic.Scripted.register slot place script).2.2 →
          ∃ o, slot.running? = some o ∧ o.place = n) ∧
    (∀ (s : Session) target h call p owner kind tag name, s.held? target = some h →
      s.callOn? h call = some (p, owner) → call.watchKind? = some kind →
      ∀ (A β : Type) (k : Conduct Watcher A β) shared,
        shared.slot = s.client.board.slot ⟨owner, kind⟩ → shared.owners ≠ 0 →
        ∃ prepare : Request Watch, p = prepare.bind (fun w => .done (.watch kind w)) ∧
          ∃ trace, (Attempts.run k ⟨shared, fun _ => none⟩ (Attempts.atOnce ()
              (prepare.bind fun w => .done (.ofWatch tag w))
              s.client.isLinked trace)).shared.slot =
            (s.call target tag name call).1.client.board.slot ⟨owner, kind⟩) ∧
    (∀ (ι Q R W A β : Type) [DecidableEq ι] (k : Conduct W A β) (x : Attempts ι Q R W β) acts i,
      (Attempts.run k x acts).attempt? i ≠ some .registered →
      (Attempts.run k x acts).shared =
        (Attempts.run k x (acts.filter fun act => act.about? ≠ some i)).shared) ∧
    ∀ (ι Q R Q' R' ν ε : Type) [DecidableEq ι] (react : ν → List (Program Q R ε)) channel
      (moves : List (Move (Work Q R ν ε) (Arrival ν R)))
      (attempt? : ι → Option (Attempt Q' R' (Work Q R ν ε)))
      (acts : List (Act ι Q' R' (Work Q R ν ε) (Arrival ν R))) s y,
      s = Shared.run Work.conduct (.fresh channel) (moves ++ [.registered (.ofReact react)]) →
      0 < s.owners → y = Attempts.run Work.conduct ⟨s, attempt?⟩ acts →
      (∀ i, y.attempt? i = some .registered → attempt? i = some .registered) →
      (∀ w, .around (.registered w) ∉ acts) →
      ∃ t turns, Attempts.GoesOn react s acts y t turns := by
  refine ⟨?_, ?_, ?_, ?_, ?_, ?_⟩
  · intro s target tag name call e hFailed
    exact call_of_failed hFailed
  · intro s target tag name call e later hFailed hNone hOther
    exact silent_of_failed hFailed hNone hOther
  · intro slot place script e hFailed
    exact Traffic.Scripted.register_of_error hFailed
  · intro s target h call p owner kind tag name hHeld hCall hKind A β k shared hSlot hOwned
    exact slot_call hHeld hCall hKind tag name k hSlot hOwned
  · intro ι Q R W A β _ k x acts i hNot
    exact (Attempts.run_without hNot).shared
  · intro ι Q R Q' R' ν ε _ react channel moves attempt? acts s y hReached hOwned hRun hFail hNone
    rw [Shared.run_concat] at hReached
    have hTask : s.slot.tasks[s.slot.last]? = some (.start (.ofReact react)) :=
      Shared.task_of_registered hReached hOwned
    have hSingle : Shared.Single s := hReached ▸ ((Shared.single_fresh channel).run moves).step _
    have hKept : Shared.Kept Work.conduct s :=
      hReached ▸ ((Shared.kept_fresh _ channel).run moves).step _
    exact Attempts.goesOn_run hSingle hKept hTask hRun hFail hNone

/-- The path of a modem. -/
def observedPath : String := "/org/freedesktop/ModemManager1/Modem/0"

/-- A session in which the signal of a registered modem is observed, and then the modem is
disabled. -/
def observed : Session :=
  (opened {} [(observedPath, "7")]
    ⟨⟨true, true, [(observedPath, [(Bus.Interface.modem, [("State", .value (.int32 8) false)]),
      (Bus.Interface.signal, [("Lte", .value (.dictionary []) false)])])], []⟩, [], []⟩).after
    [.anyModem (some "m"), .call "m" "old" none (.observeSignal 5000),
      .set observedPath Bus.Interface.modem "State" (.value (.int32 3) false)]

/-- The arguments of a signal that names the values of LTE. -/
def renewed : List Bus.Value := [.string Bus.Interface.signal, .dictionary [], .strings ["Lte"]]

/-- The signal is to be observed anew, and then its values change. -/
def anew : List Step :=
  [.call "m" "new" none (.observeSignal 5000),
    .emit observedPath Bus.Interface.properties "PropertiesChanged" renewed]

/-- A provider of counters. -/
def countingScript : Traffic.Scripted.Script :=
  ⟨"wwan0", 1000, [some ⟨1, 2⟩], 1, false, false, false⟩

/-- A provider that cannot set the rate. -/
def ratelessScript : Traffic.Scripted.Script := ⟨"wwan0", 1000, [], 0, true, false, false⟩

/-- The slot with an observer of the counters. -/
def countingSlot : Slot Traffic.Scripted.Observed :=
  (Traffic.Scripted.register .empty 0 countingScript).1

/-- What is read for an observer of the signal. -/
def readings : List Bus.Value → List (Request Notification) :=
  (Watch.ofChanges none Bus.Interface.signal (Modem.onSignalChange observedPath)).react

/-- A slot with an observer of the signal. -/
def observingSlot : Shared (Work Bus.Query Bus.Reply (List Bus.Value) Notification) Notification :=
  .run Work.conduct (.fresh .silent) [.registered (.ofReact readings)]

/-- An attempt to observe the signal of the modem while it is disabled. The values change before it
and while it is made. -/
def refused : List (Act Unit Bus.Query Bus.Reply
    (Work Bus.Query Bus.Reply (List Bus.Value) Notification)
    (Arrival (List Bus.Value) Bus.Reply)) :=
  [.around (.arrived 0 (.notice renewed)),
    .begun () ((Modem.watchSignal observedPath 5000).bind fun w => .done (.ofReact w.react)),
    .turned () true, .around (.polled 0 .work true), .around (.arrived 0 (.notice renewed)),
    .around (.arrived 0 (.reply (.ok [.dictionary [("rsrp", .double ⟨0xc057c00000000000⟩)]]))),
    .replied () (.ok [.int32 3]), .turned () true, .around (.polled 0 .shutdown true),
    .around (.arrived 0 (.reply (.ok [.dictionary []]))), .around (.polled 0 .work true)]

/-- The slot after that attempt. -/
def afterRefusal : Attempts Unit Bus.Query Bus.Reply
    (Work Bus.Query Bus.Reply (List Bus.Value) Notification) Notification :=
  .run Work.conduct ⟨observingSlot, fun _ => none⟩ refused

/-- A modem whose signal is observed refuses another observer, and a provider whose counters are
observed does so too. The observers of before are still there, and the one of the signal is told how
it changes. -/
theorem observer_outlives_failures :
    let ask : Call := .observeSignal 5000
    let refusal : Error :=
      .preconditionNotMet "observe signal quality" (.atLeast .registered) .disabled
    let weak : Notification :=
      .signal ⟨.lte, (∅ : Bag).insert "rsrp" (.float ⟨0xc057c00000000000⟩)⟩
    let slot := observed.client.board.slot ⟨0, .signal⟩
    (slot.running?.map Watcher.tag = some "old" ∧
      (observed.call "m" "new" none ask).2 = .failed refusal ∧
      ∃ world calls, (observed.call "m" "new" none ask).1 =
        { observed with scene := ⟨world, calls, observed.scene.events⟩ }) ∧
      ((∀ entry ∈ observed.runSteps anew, ∀ told ∈ entry.events, told.1 ≠ "new") ∧
        (observed.runSteps anew).map Entry.events = [[], [("old", .signal ⟨.lte, ∅⟩)]]) ∧
      (∃ (prepare : Request Watch) (trace : _),
        (Attempts.run Watcher.conduct ⟨⟨slot, 1, .silent, []⟩, fun _ => none⟩ (Attempts.atOnce ()
            (prepare.bind fun w => .done (.ofWatch "new" w))
            observed.client.isLinked trace)).shared.slot =
        (observed.call "m" "new" none ask).1.client.board.slot ⟨0, .signal⟩) ∧
      (countingSlot.running?.map Traffic.Scripted.Observed.place = some 0 ∧
        (Traffic.Scripted.register countingSlot 1 ratelessScript).1 = countingSlot) ∧
      (afterRefusal.attempt? () = some (.failed refusal) ∧
        afterRefusal.shared = (Attempts.run Work.conduct ⟨observingSlot, fun _ => none⟩
          (refused.filter fun act => act.about? ≠ some ())).shared) ∧
      ∃ t, afterRefusal.shared.slot.tasks[0]? = some t ∧ t.status = .running ∧
        Work.Ledger readings
          [.notice renewed, .notice renewed,
            .reply (.ok [.dictionary [("rsrp", .double ⟨0xc057c00000000000⟩)]]),
            .reply (.ok [.dictionary []])]
          [weak, .signal ⟨.lte, ∅⟩] t.work := by
  intro ask refusal weak slot
  obtain ⟨hCall, hSilent, hScripted, hSlot, hWithout, hKeeps⟩ := failed_registration_keeps_observer
  have hOld : slot.running?.map Watcher.tag = some "old" := by with_unfolding_all rfl
  have hRefused : (observed.call "m" "new" none ask).2 = .failed refusal := by
    with_unfolding_all rfl
  have hAnswer : (observed.step (.call "m" "new" none ask)).2.answer = .failed refusal := by
    with_unfolding_all rfl
  have hEvents : (observed.runSteps anew).map Entry.events =
      [[], [("old", .signal ⟨.lte, ∅⟩)]] := by with_unfolding_all rfl
  have hOnly : observed.client.board = [(⟨0, .signal⟩, slot)] := by with_unfolding_all rfl
  have hNone : ∀ key, ¬ observed.client.board.Runs key "new" := by
    rintro key ⟨other, hMem, w, hRuns, hTag⟩
    rw [hOnly] at hMem
    obtain ⟨-, rfl⟩ := Prod.mk.inj (List.mem_singleton.mp hMem)
    simp [hRuns, hTag] at hOld
  have hHeld : observed.held? "m" = some (.modem ⟨observedPath, 0⟩) := by with_unfolding_all rfl
  obtain ⟨prepare, -, hOnce⟩ := hSlot observed "m" _ ask _ 0 .signal "new" none hHeld rfl rfl
    Watcher.Arrival (String × Notification) Watcher.conduct ⟨slot, 1, .silent, []⟩ rfl
    Nat.one_ne_zero
  have hProvider : (Traffic.Scripted.register countingSlot 1 ratelessScript).2.1 =
      .error .timeout := rfl
  have hAttempt : afterRefusal.attempt? () = some (.failed refusal) := by with_unfolding_all rfl
  have hOwned : 0 < observingSlot.owners := Nat.one_pos
  have hTurns : afterRefusal.shared.turns =
      [⟨0, []⟩, ⟨0, [weak]⟩, ⟨0, [.signal ⟨.lte, ∅⟩]⟩] := by with_unfolding_all rfl
  have hRuns : afterRefusal.shared.slot.isRunning 0 = true := by with_unfolding_all rfl
  have hNot : ∀ i, afterRefusal.attempt? i ≠ some .registered := by
    intro i hRegistered
    rw [hAttempt] at hRegistered
    cases hRegistered
  have hOthers : ∀ w, .around (.registered w) ∉ refused := by simp [refused]
  obtain ⟨t, turns, hGoesOn⟩ := hKeeps Unit Bus.Query Bus.Reply Bus.Query Bus.Reply
    (List Bus.Value) Notification readings .silent [] (fun _ => none) refused observingSlot
    afterRefusal rfl hOwned rfl (fun i h => absurd h (hNot i)) hOthers
  have hTask : afterRefusal.shared.slot.tasks[0]? = some t := hGoesOn.task
  have hStatus : t.status = .running := by
    obtain ⟨t', hTask', hRuns'⟩ := Slot.isRunning_iff.mp hRuns
    obtain rfl : t = t' := Option.some.inj (hTask.symm.trans hTask')
    exact hRuns'
  have hNew : turns = [⟨0, []⟩, ⟨0, [weak]⟩, ⟨0, [.signal ⟨.lte, ∅⟩]⟩] :=
    hGoesOn.turns_eq.symm.trans hTurns
  have hLedger := hGoesOn.ledger hStatus
  rw [hNew] at hLedger
  exact ⟨⟨hOld, hRefused, hCall observed "m" "new" none ask refusal hRefused⟩,
    ⟨hSilent observed "m" "new" none ask refusal _ hAnswer hNone (by simp [Step.tag?]), hEvents⟩,
    ⟨prepare, hOnce⟩, ⟨rfl, (hScripted countingSlot 1 ratelessScript .timeout hProvider).1 rfl⟩,
    ⟨hAttempt, hWithout Unit Bus.Query Bus.Reply _ _ _ Work.conduct
      ⟨observingSlot, fun _ => none⟩ refused () (hNot ())⟩,
    t, hTask, hStatus, hLedger⟩

end Session

end ModemLink
