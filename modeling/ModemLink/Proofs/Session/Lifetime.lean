import ModemLink.Proofs.Observer.Single
import ModemLink.Proofs.Program.Links
import ModemLink.Proofs.Session.Moves

/-!
# Handles without a manager

A handle works while its manager exists. Once the last manager is gone, and no reset that keeps one
of its own is under way, nothing can bring a manager back, and every call on a handle is refused
before it asks anything. Before that no step is refused for this reason: a reset that runs by itself
always finds a manager, because it is one of those that keep the client linked.

* `Client.Moved.unlinked_stays`: what is gone stays gone.
* `Client.Untroubled`: no reset has missed its manager, nor will.
* `Session.step_call_of_unlinked`: a call without a manager.
* `Session.answer_act_ne`: a step with a manager.
* `Session.handles_need_manager`: both, for all handles and all runs.
-/

namespace ModemLink

open Program (NeedsManager)

variable {may : SlotKey → Watcher → Prop}

/-! ## Once the last manager is gone -/

theorem Observer.Slot.running?_finish {W : Type} (s : Slot W) : s.finish.running? = none := by
  have hLast : s.finish.last = s.last := by simp [last, finish]
  rw [running?, hLast, finish, getElem?_changeAt, if_pos rfl]
  cases s.tasks[s.last]? with
  | none => rfl
  | some t =>
    have hOver : t.finish.status ≠ .running := by
      unfold Task.finish
      split
      · exact Status.noConfusion
      · assumption
    exact if_neg hOver

theorem Board.isIdle_finish (b : Board) : b.finish.isIdle = true := by
  simp only [isIdle, finish, List.all_map, List.all_eq_true]
  intro e _
  simp [isAtRest, Observer.Slot.running?_finish]

theorem RunningReset.Moved.hasEnded {linked : Bool} {r r' : RunningReset}
    (h : r.Moved linked r') (hEnded : r.stage.hasEnded = true) : r'.stage.hasEnded = true := by
  obtain ⟨modem, stage⟩ := r
  cases stage with
  | ended result => cases h <;> rfl
  | _ => cases hEnded

namespace Client

variable {c : Client}

theorem isLinked_eq_false_iff : c.isLinked = false ↔
    c.managers = 0 ∧ ∀ e ∈ c.resets, e.2.stage.hasEnded = true := by
  simp [isLinked]

theorem isLinked_of_managers (h : c.managers ≠ 0) : c.isLinked = true := by
  simp [isLinked, h]

theorem Moved.unlinked_stays {x y : Client × Scene} (h : Moved may x y)
    (hGone : x.1.isLinked = false) : y.1.isLinked = false := by
  obtain ⟨hNone, hEnded⟩ := isLinked_eq_false_iff.mp hGone
  -- Managers are cloned, and resets begun, only through a manager.
  refine isLinked_eq_false_iff.mpr ⟨h.managers hNone, fun e hMem => ?_⟩
  rcases h.reset hMem with ⟨r, hOld, hMoved⟩ | ⟨hManaged, -⟩
  · exact hMoved.hasEnded (hEnded _ hOld)
  · exact absurd hNone hManaged

theorem isIdle_unlink (h : c.isLinked = false) : c.unlink.isIdle = true := by
  have hBlocked : (c.resets.all fun r => r.2.stage.isBlocked c.modems.close) = true := by
    refine List.all_eq_true.mpr fun e hMem => ?_
    have hEnded := (isLinked_eq_false_iff.mp h).2 e hMem
    cases hStage : e.2.stage with
    | ended result => rfl
    | _ => simp [hStage, Reset.hasEnded] at hEnded
  simp [unlink, h, isIdle, Tracker.idle, Tracker.isIdle, c.board.isIdle_finish, hBlocked]

/-- Without a manager nothing goes on by itself. -/
theorem settle_of_unlinked (h : c.isLinked = false) (s : Scene) : c.settle s = (c.unlink, s) := by
  rw [settle, roundLimit, rounds, if_pos (isIdle_unlink h)]

end Client

namespace Session

variable {s : Session}

theorem unlinked_after (h : s.client.isLinked = false) (steps : List Step) :
    (s.after steps).client.isLinked = false :=
  after_keeps (I := fun x => x.1.isLinked = false) (fun _ _ _ hMoved => hMoved.unlinked_stays) h
    steps

theorem scene_settle_of_unlinked (h : s.client.isLinked = false) : s.settle.scene = s.scene := by
  simp only [settle, Client.settle_of_unlinked h]

theorem needsManager_of_callOn? {h : Held} {call : Call} {p : Request Call.Result} {owner : Nat}
    (hCall : s.callOn? h call = some (p, owner)) : NeedsManager p := by
  obtain ⟨m, -, hOn⟩ | ⟨path, -, hOn⟩ | ⟨b, -, hOn⟩ := callOn?_cases hCall
  · exact Call.needsManager_onModem hOn
  · exact Call.needsManager_onSim hOn
  · exact Call.needsManager_onBearer hOn

/-- A call that a handle takes is refused without a manager; nothing is asked, and nobody is told
anything. -/
theorem step_call_of_unlinked (hGone : s.client.isLinked = false) {target : String} {h : Held}
    {call : Call} {p : Request Call.Result} {owner : Nat} (hHeld : s.held? target = some h)
    (hCall : s.callOn? h call = some (p, owner)) (tag : String) (name : Option String) :
    (s.step (.call target tag name call)).2 = ⟨.failed .managerDropped, [], []⟩ := by
  let started : Session := { s with scene := s.scene.fresh }
  have hRun : p.run Scene.ask started.client.isLinked started.scene =
      ⟨.error .managerDropped, started.scene, []⟩ := by
    rw [show started.client.isLinked = false from hGone]
    exact (needsManager_of_callOn? hCall).run_unlinked _ _
  have hHeld' :
      (started.held? target).bind (fun h => started.callOn? h call) = some (p, owner) := by
    rw [show started.held? target = some h from hHeld]
    exact hCall
  have hAct : started.act (.call target tag name call) = (started, .failed .managerDropped) := by
    simp only [act, Session.call, hHeld', request, hRun]
  have hScene : started.settle.scene = started.scene := scene_settle_of_unlinked hGone
  rw [step, show ({ s with scene := s.scene.fresh } : Session) = started from rfl, hAct]
  simp only [hScene]
  rfl

end Session

/-! ## While there is a manager -/

/-- The reset has not missed its manager, and will not. -/
def Reset.FindsManager : Reset → Prop
  | identifying identity => identity.FindsManager
  | resetting _ order => order.FindsManager
  | waiting _ => True
  | ended result => Harmless result

namespace Registry

variable {H : Type} {r : Registry H} {id : RequestId} {x : Except Error (Tracked H)}

theorem harmless_outcome? (h : r.outcome? id = some x) : Harmless x := by
  unfold outcome? at h
  split at h
  · exact Option.some.inj h ▸ .ok _
  · exact Option.some.inj h ▸ .error nofun
  · cases h

theorem Wait.harmless_poll {expired : Bool} {choice : Choice}
    (h : poll r id expired choice = some x) : Harmless x := by
  unfold poll at h
  split at h
  · exact Option.some.inj h ▸ harmless_outcome? ‹_›
  · exact Option.some.inj h ▸ .error nofun
  · exact Option.some.inj h ▸ harmless_outcome? ‹_›
  · exact Option.some.inj h ▸ .error nofun
  · cases h

end Registry

namespace Reset

variable {r : Reset}

theorem finds_begin (modems : Modems) (path : String) : (begin modems path).FindsManager := by
  unfold begin
  split
  · trivial
  · exact (Modem.needs_imei path).finds

theorem finds_onIdentity (path : String) (modems : Modems) (identity : String) :
    (onIdentity path modems identity).2.FindsManager := by
  unfold onIdentity
  split
  · exact Harmless.error nofun
  · exact (Modem.needs_reset path).finds

theorem finds_onReturn (modems : Modems) (request : Registry.RequestId) :
    (onReturn modems request).2.FindsManager := by
  unfold onReturn
  split
  · exact Registry.Wait.harmless_poll ‹_›
  · trivial

theorem FindsManager.step (h : r.FindsManager) {linked : Bool}
    (hLinked : r.hasEnded = false → linked = true) (path : String) (modems : Modems) :
    (r.step path linked modems).2.FindsManager := by
  cases r with
  | identifying identity =>
    obtain rfl := hLinked rfl
    have hFinds := Program.finds_proceed h
    rcases identity.proceed_cases true with ⟨text, hP⟩ | ⟨e, hP⟩ | ⟨q, next, hP⟩ <;>
      simp only [Reset.step, hP]
    · exact finds_onIdentity path modems text
    · rw [hP] at hFinds
      exact .error hFinds
    · rwa [hP] at hFinds
  | resetting request order =>
    obtain rfl := hLinked rfl
    have hFinds := Program.finds_proceed h
    rcases order.proceed_cases true with ⟨u, hP⟩ | ⟨e, hP⟩ | ⟨q, next, hP⟩ <;>
      simp only [Reset.step, hP]
    · trivial
    · rw [hP] at hFinds
      exact .error hFinds
    · rwa [hP] at hFinds
  | waiting request => exact finds_onReturn modems request
  | ended result => exact h

theorem FindsManager.reply (h : r.FindsManager) (reply : Bus.Reply) :
    (r.reply reply).FindsManager := by
  cases r with
  | identifying identity =>
    cases identity with
    | ask q next => exact h reply
    | _ => exact h
  | resetting request order =>
    cases order with
    | ask q next => exact h reply
    | _ => exact h
  | _ => exact h

theorem FindsManager.expire (h : r.FindsManager) (modems : Modems) :
    (r.expire .outcome modems).2.FindsManager := by
  cases r with
  | waiting request =>
    unfold Reset.expire
    dsimp only
    split
    · exact Registry.Wait.harmless_poll ‹_›
    · trivial
  | _ => exact h

end Reset

theorem RunningReset.Moved.finds {linked : Bool} {r r' : RunningReset} (h : r.Moved linked r')
    (hLinked : r.stage.hasEnded = false → linked = true) (hFinds : r.stage.FindsManager) :
    r'.stage.FindsManager := by
  cases h with
  | same => exact hFinds
  | turned modems s =>
    have hStep := hFinds.step hLinked r.modem.path modems
    unfold Client.turnReset
    dsimp only
    split
    · exact hStep
    · exact hStep.reply _
  | expired modems => exact hFinds.expire modems

namespace Client

/-- No reset has missed its manager, nor will. -/
def Untroubled (c : Client) : Prop := ∀ e ∈ c.resets, e.2.stage.FindsManager

theorem Moved.untroubled {x y : Client × Scene} (h : Moved may x y) (hFinds : x.1.Untroubled) :
    y.1.Untroubled := by
  intro e hMem
  rcases h.reset hMem with ⟨r, hOld, hMoved⟩ | ⟨-, m, hBegun⟩
  · refine hMoved.finds (fun hRuns => ?_) (hFinds _ hOld)
    -- A reset that goes on is itself one of those that keep the client linked.
    by_contra hGone
    have hEnded := (isLinked_eq_false_iff.mp (Bool.eq_false_iff.mpr hGone)).2 _ hOld
    exact Bool.noConfusion (hRuns.symm.trans hEnded)
  · rw [hBegun]
    exact Reset.finds_begin _ _

theorem Untroubled.harmless_resetResult? {c : Client} (h : c.Untroubled) {id : Nat}
    {x : Except Error (Tracked Nat)} (hResult : c.resetResult? id = some x) : Harmless x := by
  unfold resetResult? at hResult
  split at hResult
  · rename_i modem result hLookup
    cases hResult
    obtain ⟨before, later, hSplit, -⟩ := List.lookup_eq_some_iff.mp hLookup
    exact h (id, ⟨modem, .ended x⟩) (by simp [hSplit])
  · cases hResult

end Client

namespace Session

variable {s : Session}

theorem Leads.untroubled {s' : Session} (h : Leads may s s') (hFinds : s.client.Untroubled) :
    s'.client.Untroubled :=
  h.keeps (I := fun x => x.1.Untroubled) (fun _ _ hMoved => hMoved.untroubled) hFinds

theorem giveOutcome_ne {x : Except Error (Tracked Nat)} (h : Harmless x) (name : Option String) :
    (s.giveOutcome name x).2 ≠ .failed .managerDropped := by
  cases x with
  | ok m => nofun
  | error e => exact fun hDropped => h (congrArg _ (Answer.failed.inj hDropped))

theorem harmless_request {α : Type} {p : Request α} (h : p.FindsManager)
    (hLinked : s.client.isLinked = true) : Harmless (s.request p).2 := by
  have hResult := h.result Scene.ask s.scene
  rwa [← hLinked] at hResult

theorem give_ne {α : Type} {f : α → Answer} (hf : ∀ a, f a ≠ .failed .managerDropped)
    {r : Session × Except Error α} (h : Harmless r.2) :
    (give f r).2 ≠ .failed .managerDropped := by
  obtain ⟨s, x⟩ := r
  cases x with
  | ok a => exact hf a
  | error e => exact fun hDropped => h (congrArg _ (Answer.failed.inj hDropped))

theorem receive_ne (owner : Nat) (tag : String) (name : Option String) (r : Call.Result)
    (e : Error) : (s.receive owner tag name r).2 ≠ .failed e := by
  unfold receive
  split <;> nofun

theorem call_ne (hLinked : s.client.isLinked = true) (target tag : String) (name : Option String)
    (call : Call) : (s.call target tag name call).2 ≠ .failed .managerDropped := by
  unfold Session.call
  split
  · nofun
  · rename_i p owner hCall
    obtain ⟨h, -, hOn⟩ := Option.bind_eq_some_iff.mp hCall
    have hHarmless := harmless_request (needsManager_of_callOn? hOn).finds hLinked
    cases hRequest : s.request p with
    | mk s' x =>
      rw [hRequest] at hHarmless
      cases x with
      | ok r => exact receive_ne _ _ _ _ _
      | error e => exact fun hDropped => hHarmless (congrArg _ (Answer.failed.inj hDropped))

theorem poll_ne (hFinds : s.client.Untroubled) (target : String) (name : Option String) :
    (s.poll target name).2 ≠ .failed .managerDropped := by
  unfold poll
  dsimp only
  split
  · nofun
  · nofun
  · rename_i x hOutcome
    refine giveOutcome_ne ?_ name
    split at hOutcome
    · exact Registry.harmless_outcome? (Option.some.inj hOutcome)
    · exact hFinds.harmless_resetResult? (Option.some.inj hOutcome)
    · cases hOutcome

theorem resetModem_ne (hManaged : s.client.managers ≠ 0) (hFinds : s.client.Untroubled)
    (target : String) (background : Bool) (name : Option String) :
    (s.resetModem target background name).2 ≠ .failed .managerDropped := by
  unfold resetModem
  split
  · nofun
  · rename_i m _
    split
    · nofun
    · have hLeads : Leads (fun _ _ => False) s (s.untilReset m) := s.leads_untilReset m hManaged
      have hHarmless : Harmless (s.resetNow m).2 := by
        rw [resetNow_eq]
        cases hResult : (s.untilReset m).client.resetResult? s.client.fresh with
        | none => exact .error nofun
        | some x => exact (hLeads.untroubled hFinds).harmless_resetResult? hResult
      generalize s.resetNow m = reset at hHarmless ⊢
      exact giveOutcome_ne hHarmless name

theorem useManager_ne (hManaged : s.client.managers ≠ 0) (hFinds : s.client.Untroubled)
    (step : Step) : (s.useManager step).2 ≠ .failed .managerDropped := by
  have hLinked := Client.isLinked_of_managers hManaged
  cases step with
  | version =>
    exact give_ne nofun (harmless_request (Request.finds_property _ _ _ _ _) hLinked)
  | scanDevices =>
    exact give_ne nofun (harmless_request (Request.finds_asking _ _ (by nofun)) hLinked)
  | resetModem target background name => exact resetModem_ne hManaged hFinds target background name
  | _ => nofun

/-- A step is not refused for want of a manager while there is one. -/
theorem answer_act_ne (hLinked : s.client.isLinked = true) (hFinds : s.client.Untroubled)
    (step : Step) : (s.act step).2 ≠ .failed .managerDropped := by
  have hManager : (if s.client.managers = 0 then (s, Answer.noManager) else s.useManager step).2 ≠
      .failed .managerDropped := by
    split
    · rintro ⟨⟩
    · exact useManager_ne ‹_› hFinds step
  cases step with
  | poll target name => exact poll_ne hFinds target name
  | call target tag name call => exact call_ne hLinked target tag name call
  | cloneManager =>
    simp only [act]
    split <;> rintro ⟨⟩
  | path target =>
    simp only [act]
    split <;> rintro ⟨⟩
  | clone target name =>
    simp only [act]
    split <;> rintro ⟨⟩
  | set | script | services | added | removed | emit | dropManager | drop => rintro ⟨⟩
  | _ => exact hManager

/-- **Handles need their manager.** What a handle does for a call depends on the manager in this
way. Without one the call is refused at once, whatever bus there is: nothing is asked. While there
is one it never fails for this reason, whatever the replies are.

In a session whose last manager is gone there is none again, whatever is done later, and every call
that a handle takes is refused without a call on the bus and without anything being told to an
observer. In a session that was started on any bus, no step at all is refused while there is a
manager. -/
theorem handles_need_manager :
    (∀ (s : Session) (h : Held) (call : Call) p owner, s.callOn? h call = some (p, owner) →
      ∀ (σ : Type) (answer : σ → Bus.Query → Bus.Reply × σ) (bus : σ),
        p.run answer false bus = ⟨.error .managerDropped, bus, []⟩ ∧
        (p.run answer true bus).result ≠ .error .managerDropped) ∧
    (∀ s : Session, s.client.isLinked = false → ∀ steps, (s.after steps).client.isLinked = false ∧
      ∀ target h call p owner, (s.after steps).held? target = some h →
        (s.after steps).callOn? h call = some (p, owner) → ∀ tag name,
        ((s.after steps).step (.call target tag name call)).2 =
          ⟨.failed .managerDropped, [], []⟩) ∧
    ∀ config modems scene steps s, s = (opened config modems scene).after steps →
      s.client.isLinked = true → ∀ step, (s.step step).2.answer ≠ .failed .managerDropped := by
  refine ⟨?_, ?_, ?_⟩
  · intro s h call p owner hCall σ answer bus
    have hNeeds := needsManager_of_callOn? hCall
    exact ⟨hNeeds.run_unlinked answer bus, hNeeds.finds.result answer bus⟩
  · intro s hGone steps
    have hLater := unlinked_after hGone steps
    refine ⟨hLater, ?_⟩
    intro target h call p owner hHeld hCall tag name
    exact step_call_of_unlinked hLater hHeld hCall tag name
  · intro config modems scene steps s hReached hLinked step
    have hOpened : (opened config modems scene).client.Untroubled := fun _ hMem => nomatch hMem
    have hFinds : s.client.Untroubled := by
      rw [hReached]
      exact after_keeps (I := fun x => x.1.Untroubled)
        (fun _ _ _ hMoved => hMoved.untroubled) hOpened steps
    exact answer_act_ne (s := { s with scene := s.scene.fresh }) hLinked hFinds step

/-- A modem that is asked before and after its manager is dropped. -/
theorem modem_refuses_without_manager :
    let path := "/org/freedesktop/ModemManager1/Modem/0"
    let bus : Scene := ⟨⟨true, true, [], []⟩, [], []⟩
    let s := (opened {} [(path, "7")] bus).after [.anyModem (some "m")]
    let gone := (s.step .dropManager).1
    let ask : Step := .call "m" "quality" none (.observeSignal 5000)
    (s.client.isLinked = true ∧ (s.step ask).2.answer ≠ .failed .managerDropped) ∧
      (gone.client.isLinked = false ∧ (gone.after []).held? "m" = some (.modem ⟨path, 0⟩) ∧
        (gone.step ask).2 = ⟨.failed .managerDropped, [], []⟩) ∧
      ∃ p, gone.callOn? (.modem ⟨path, 0⟩) (.observeSignal 5000) = some (p, 0) ∧
        p.run (fun _ _ => (.ok [], ())) false () = ⟨.error .managerDropped, (), []⟩ := by
  intro path bus s gone ask
  obtain ⟨hCalls, hGone, hLinked⟩ := handles_need_manager
  have hBefore : s.client.isLinked = true := rfl
  have hAfter : gone.client.isLinked = false := by
    subst gone s bus path
    decide
  have hHeld : (gone.after []).held? "m" = some (.modem ⟨path, 0⟩) := by
    subst gone s bus path
    rfl
  have hCall : gone.callOn? (.modem ⟨path, 0⟩) (.observeSignal 5000) = some (_, 0) := rfl
  have hAnswer := hLinked {} [(path, "7")] bus [.anyModem (some "m")] s rfl hBefore ask
  have hRefused := (hGone gone hAfter []).2 "m" _ _ _ _ hHeld hCall "quality" none
  have hRun := (hCalls gone _ _ _ _ hCall Unit (fun _ _ => (.ok [], ())) ()).1
  exact ⟨⟨hBefore, hAnswer⟩, ⟨hAfter, hHeld, hRefused⟩, _, hCall, hRun⟩

end Session

end ModemLink
