import ModemLink.Proofs.Manager.Order
import ModemLink.Proofs.Registry.Ownership
import ModemLink.Proofs.Session.Lifetime

/-!
# What cancellation says

A future that ends with cancellation was replaced by a newer request, as long as there is a manager.
When the last manager goes, a future that still waits is told the same although nothing replaced it;
that the manager is gone is not what it is told.

* `Client.Moved.modems`: every move changes the registry by events, or closes it.
* `Registry.Explained`: every cancelled request has a successor.
* `Session.explained_after`: that holds of every session while there is a manager.
* `Session.cancelled_when_replaced_or_orphaned`: what cancellation says, for every registry and
  those who keep it, and in every session.
-/

namespace ModemLink

open Registry (Event)

variable {may : SlotKey → Watcher → Prop}

/-! ## Events of the registry -/

theorem Tracker.exists_events_step (linked : Bool) (fresh : Nat) (t : Tracker) (modems : Modems) :
    ∃ events, (t.step linked fresh modems).2 = modems.applyAll events := by
  have hTurned := turned_step linked fresh t modems
  generalize t.step linked fresh modems = turned at hTurned ⊢
  cases hTurned with
  | removal removalsFirst free first =>
    dsimp only
    split
    · exact ⟨[.removed _], rfl⟩
    · exact ⟨[], rfl⟩
  | @identified path identity p busy ended => exact ⟨[.added ⟨path, fresh⟩ identity], rfl⟩
  | _ => exact ⟨[], rfl⟩

namespace Reset

theorem exists_events_onIdentity (path : String) (modems : Modems) (identity : String) :
    ∃ events, (onIdentity path modems identity).1 = modems.applyAll events := by
  unfold onIdentity
  split
  · exact ⟨[], rfl⟩
  · exact ⟨[.requested (.imei identity)], rfl⟩

theorem exists_events_step (path : String) (linked : Bool) (modems : Modems) (r : Reset) :
    ∃ events, (r.step path linked modems).1 = modems.applyAll events := by
  cases r with
  | identifying identity =>
    unfold step
    dsimp only
    split
    · exact exists_events_onIdentity path modems _
    · exact ⟨[], rfl⟩
    · exact ⟨[], rfl⟩
  | resetting request order =>
    unfold step
    dsimp only
    split
    · exact ⟨[], rfl⟩
    · exact ⟨[.dropped request], rfl⟩
    · exact ⟨[], rfl⟩
  | waiting request =>
    unfold step onReturn
    dsimp only
    split
    · exact ⟨[.dropped request], rfl⟩
    · exact ⟨[], rfl⟩
  | ended result => exact ⟨[], rfl⟩

theorem exists_events_expire (choice : Registry.Wait.Choice) (modems : Modems) (r : Reset) :
    ∃ events, (r.expire choice modems).1 = modems.applyAll events := by
  unfold expire
  split
  · split
    · exact ⟨[.dropped _], rfl⟩
    · exact ⟨[], rfl⟩
  · exact ⟨[], rfl⟩

theorem exists_events_giveUp (modems : Modems) (r : Reset) :
    ∃ events, r.giveUp modems = modems.applyAll events := by
  unfold giveUp
  split
  · exact ⟨[.dropped _], rfl⟩
  · exact ⟨[], rfl⟩

end Reset

namespace Client

theorem exists_events_turnResets (linked : Bool) (resets : List (Nat × RunningReset))
    (modems : Modems) (s : Scene) :
    ∃ events, (turnResets linked resets modems s).2.1 = modems.applyAll events := by
  induction resets generalizing modems s with
  | nil => exact ⟨[], rfl⟩
  | cons e rest ih =>
    have hFirst : ∃ events, (turnReset linked e.2 modems s).2.1 = modems.applyAll events := by
      obtain ⟨events, hEvents⟩ := e.2.stage.exists_events_step e.2.modem.path linked modems
      unfold turnReset
      dsimp only
      split <;> exact ⟨events, hEvents⟩
    obtain ⟨events, hEvents⟩ := hFirst
    obtain ⟨more, hMore⟩ :=
      ih (turnReset linked e.2 modems s).2.1 (turnReset linked e.2 modems s).2.2
    exact ⟨events ++ more, by rw [Registry.applyAll_append, ← hEvents, ← hMore]; rfl⟩

theorem exists_events_expireAll (ended : Nat → Bool) (resets done : List (Nat × RunningReset))
    (modems : Modems) :
    ∃ events, (resets.foldl (expireOne ended) (modems, done)).1 = modems.applyAll events := by
  induction resets generalizing modems done with
  | nil => exact ⟨[], rfl⟩
  | cons e rest ih =>
    have hFirst : ∃ events done', expireOne ended (modems, done) e =
        (modems.applyAll events, done') := by
      obtain ⟨events, hEvents⟩ := e.2.stage.exists_events_expire .outcome modems
      unfold expireOne
      split
      · exact ⟨events, _, by rw [← hEvents]⟩
      · exact ⟨[], _, rfl⟩
    obtain ⟨events, done', hEvents⟩ := hFirst
    obtain ⟨more, hMore⟩ := ih done' (modems.applyAll events)
    exact ⟨events ++ more, by rw [Registry.applyAll_append, ← hMore, List.foldl_cons, hEvents]⟩

theorem modems_unlink (c : Client) :
    c.unlink.modems = c.modems ∨ c.isLinked = false ∧ c.unlink.modems = c.modems.close := by
  unfold unlink
  split
  · exact .inl rfl
  · rename_i hGone
    exact .inr ⟨Bool.eq_false_iff.mpr hGone, rfl⟩

/-- A move changes the registry by events, or closes it because nobody is left. -/
theorem Moved.modems {x y : Client × Scene} (h : Moved may x y) :
    ∃ events, y.1.modems = x.1.modems.applyAll events ∨
      y.1.isLinked = false ∧ y.1.modems = (x.1.modems.applyAll events).close := by
  cases h with
  | turnedTracker c s =>
    obtain ⟨events, hEvents⟩ := c.tracker.exists_events_step c.isLinked c.fresh c.modems
    obtain ⟨tracker, scene, -, hTurn⟩ := c.turnTracker_eq s
    rw [hTurn]
    exact ⟨events, .inl hEvents⟩
  | turnedResets c s =>
    obtain ⟨events, hEvents⟩ := exists_events_turnResets c.isLinked c.resets c.modems s
    exact ⟨events, .inl hEvents⟩
  | unlinked c s =>
    refine ⟨[], ?_⟩
    rcases c.modems_unlink with hSame | ⟨hGone, hClosed⟩
    · exact .inl hSame
    · exact .inr ⟨c.isLinked_unlink.trans hGone, hClosed⟩
  | expired c s ended =>
    let done := c.resets.foldl (expireOne ended) (c.modems, [])
    let expired : Client := { c with modems := done.1, resets := done.2 }
    obtain ⟨events, hEvents⟩ := exists_events_expireAll ended c.resets [] c.modems
    refine ⟨events, ?_⟩
    rcases expired.modems_unlink with hSame | ⟨hGone, hClosed⟩
    · exact .inl (hSame.trans hEvents)
    · exact .inr ⟨expired.isLinked_unlink.trans hGone, hClosed.trans (congrArg _ hEvents)⟩
  | requested s filter hManaged => exact ⟨[.requested filter], .inl rfl⟩
  | abandoned c s id => exact ⟨[.dropped id], .inl rfl⟩
  | ended c s id =>
    cases hReset : c.resets.lookup id with
    | none => exact ⟨[], .inl (by simp [endReset, hReset])⟩
    | some r =>
      obtain ⟨events, hEvents⟩ := r.stage.exists_events_giveUp c.modems
      exact ⟨events, .inl (by simpa [endReset, hReset] using hEvents)⟩
  | _ => exact ⟨[], .inl rfl⟩

end Client

/-! ## Successors -/

namespace Registry

variable {H : Type} {r : Registry H}

/-- After every request that was cancelled another one was made. -/
def Explained (r : Registry H) : Prop :=
  ∀ id : RequestId, r.futures[id]? = some .cancelled → id + 1 < r.futures.length

theorem Explained.apply (h : r.Explained) (e : Event H) : (r.apply e).Explained := by
  intro id hCancelled
  have hLength := length_futures_apply r e
  rcases future_apply r e id with hSame | ⟨filter, hWaits, hSettles, hVerdict⟩ |
      ⟨f, -, -, hWaiting⟩ | ⟨-, -, hDropped⟩
  · exact Nat.lt_of_lt_of_le (h id (hSame.symm.trans hCancelled)) hLength
  · cases e with
    | requested newer =>
      have hNewer : (r.apply (.requested newer)).futures.length = r.futures.length + 1 := by
        simp [Registry.apply, futures_await]
      exact hNewer ▸ Nat.succ_lt_succ hWaits.lt
    | added object identity => cases hVerdict.symm.trans hCancelled
    | _ => cases hSettles
  · cases hWaiting.symm.trans hCancelled
  · cases hDropped.symm.trans hCancelled

theorem Explained.applyAll (h : r.Explained) (events : List (Event H)) :
    (r.applyAll events).Explained := by
  induction events generalizing r with
  | nil => exact h
  | cons e rest ih => exact ih (h.apply e)

end Registry

theorem Manager.exists_events_modems (fresh : Nat) (found : List (String × String)) (r : Modems) :
    ∃ events, Manager.modems fresh found r = r.applyAll events := by
  induction found generalizing fresh r with
  | nil => exact ⟨[], rfl⟩
  | cons first rest ih =>
    obtain ⟨events, hEvents⟩ := ih (fresh + 1) (r.add ⟨first.1, fresh⟩ first.2).1
    exact ⟨.added ⟨first.1, fresh⟩ first.2 :: events, hEvents⟩

namespace Client

/-- While there is a manager, cancelled requests have successors. -/
def Explained (c : Client) : Prop := c.isLinked = true → c.modems.Explained

theorem Moved.explained {x y : Client × Scene} (h : Moved may x y) (hBefore : x.1.Explained) :
    y.1.Explained := by
  intro hLinked
  have hLinkedBefore : x.1.isLinked = true := by
    by_contra hGone
    have hStays := h.unlinked_stays (Bool.eq_false_iff.mpr hGone)
    exact Bool.noConfusion (hLinked.symm.trans hStays)
  -- To close the registry would leave a request without a successor, but then nobody is left.
  obtain ⟨events, hEvents | ⟨hGone, -⟩⟩ := h.modems
  · rw [hEvents]
    exact (hBefore hLinkedBefore).applyAll events
  · exact Bool.noConfusion (hLinked.symm.trans hGone)

end Client

namespace Session

variable {s : Session}

theorem explained_after (config : Config) (modems : List (String × String)) (scene : Scene)
    (steps : List Step) : ((opened config modems scene).after steps).client.Explained := by
  refine after_keeps (I := fun x => x.1.Explained) (fun _ _ _ hMoved => hMoved.explained) ?_ steps
  intro _
  obtain ⟨events, hEvents⟩ := Manager.exists_events_modems 0 modems .empty
  have hEmpty : (Registry.empty : Modems).Explained := fun _ hCancelled => nomatch hCancelled
  show (Manager.modems 0 modems .empty).Explained
  rw [hEvents]
  exact hEmpty.applyAll events

theorem poll_request {target : String} {id : Registry.RequestId}
    (hHeld : s.held? target = some (.request id)) (name : Option String) :
    (s.poll target name).2 =
      match s.client.modems.outcome? id with
      | none => .pending
      | some (.ok m) => .modem (some m.path)
      | some (.error e) => .failed e := by
  unfold poll
  rw [hHeld]
  dsimp only
  cases s.client.modems.outcome? id with
  | none => rfl
  | some r => cases r <;> rfl

end Session

/-! ## When the last manager goes -/

namespace Client

theorem expireAll_of_ended (ended : Nat → Bool) {resets : List (Nat × RunningReset)}
    (h : ∀ e ∈ resets, e.2.stage.hasEnded = true) (modems : Modems)
    (done : List (Nat × RunningReset)) :
    resets.foldl (expireOne ended) (modems, done) = (modems, done ++ resets) := by
  induction resets generalizing done with
  | nil => simp
  | cons first rest ih =>
    obtain ⟨id, modem, stage⟩ := first
    have hFirst : expireOne ended (modems, done) (id, ⟨modem, stage⟩) =
        (modems, done ++ [(id, ⟨modem, stage⟩)]) := by
      have hEnded : stage.hasEnded = true := h _ List.mem_cons_self
      cases stage with
      | ended result =>
        unfold expireOne
        split <;> rfl
      | _ => cases hEnded
    rw [List.foldl_cons, hFirst, ih fun e hMem => h e (List.mem_cons_of_mem _ hMem)]
    simp

theorem modems_unlink_of_unlinked {c : Client} (h : c.isLinked = false) :
    c.unlink.modems = c.modems.close := by
  rw [unlink, h]
  rfl

theorem modems_expire_of_unlinked {c : Client} (h : c.isLinked = false) (ended : Nat → Bool) :
    (c.expire ended).modems = c.modems.close := by
  have hEnded := (isLinked_eq_false_iff.mp h).2
  rw [expire_eq, expireAll_of_ended ended hEnded]
  exact modems_unlink_of_unlinked h

end Client

namespace Session

variable {s : Session}

theorem futures_settle_of_unlinked (h : s.client.isLinked = false) :
    s.settle.client.modems.futures = s.client.modems.close.futures := by
  have hUnlinked : s.client.unlink.isLinked = false := s.client.isLinked_unlink.trans h
  simp only [settle, Client.settle_of_unlinked h]
  -- In haste the registry is closed twice, but nobody waits the second time.
  split
  · rw [Client.modems_expire_of_unlinked hUnlinked, Client.modems_unlink_of_unlinked h,
      Registry.futures_close_close]
  · rw [Client.modems_unlink_of_unlinked h]

/-- When the last manager goes, a future that still waits is told that it was replaced. -/
theorem poll_after_dropManager {target : String} {id : Registry.RequestId} {filter : ModemFilter}
    (hHeld : s.held? target = some (.request id)) (hWaits : s.client.modems.Waits id filter)
    (hLast : s.client.managers = 1) (hResets : ∀ e ∈ s.client.resets, e.2.stage.hasEnded = true)
    (name : Option String) :
    ((s.step .dropManager).1.step (.poll target name)).2.answer = .failed .cancelled := by
  let left : Session := (({ s with scene := s.scene.fresh } : Session).act .dropManager).1
  have hLeft : left.client.isLinked = false :=
    Client.isLinked_eq_false_iff.mpr ⟨Nat.sub_eq_zero_of_le (Nat.le_of_eq hLast), hResets⟩
  have hFutures : left.settle.client.modems.futures[id]? = some .cancelled := by
    rw [futures_settle_of_unlinked hLeft]
    exact hWaits.close
  have hOutcome := Registry.outcome?_eq_cancelled_iff.mpr hFutures
  have hHeldLeft : left.settle.held? target = some (.request id) := hHeld
  show (Session.poll { left.settle with scene := left.settle.scene.fresh } target name).2 = _
  rw [poll_request (s := { left.settle with scene := left.settle.scene.fresh }) hHeldLeft]
  dsimp only
  rw [hOutcome]

/-- **What cancellation says.** Take a registry and those who keep it, and let anything happen.
A future is told that it was cancelled if it waited when a newer request was made, or waited when
the registry lost the last who kept it, and was not dropped since; and only then. While there is a
manager it can only have been the newer request.

In every session, whatever is done, a future that is told so while there is a manager has been
replaced: another request was made after it. But a future that waits when the last manager is
dropped is told so as well. -/
theorem cancelled_when_replaced_or_orphaned {H : Type} (r : Registry H)
    (moves : List (Registry.Owned.Move H)) (request : Registry.RequestId) (hSound : r.Sound)
    (hNone : r.futures[request]? ≠ some .cancelled) :
    let s := (Registry.Owned.start r).run
    ((s moves).registry.outcome? request = some (.error .cancelled) ↔
      ∃ before m after filter, moves = before ++ m :: after ∧
        (s before).registry.Waits request filter ∧
        ((s before).Supersedes m ∨ (s before).Orphans m) ∧ .happened (.dropped request) ∉ after) ∧
    ((s moves).managers ≠ 0 → (s moves).registry.outcome? request = some (.error .cancelled) →
      ∃ before newer after filter, moves = before ++ .happened (.requested newer) :: after ∧
        (s before).registry.Waits request filter) ∧
    (∀ config modems scene steps s, s = (opened config modems scene).after steps →
      s.client.isLinked = true → ∀ target id name, s.held? target = some (.request id) →
      (s.step (.poll target name)).2.answer = .failed .cancelled →
      id + 1 < s.client.modems.futures.length) ∧
    ∀ (s : Session) target id filter name, s.held? target = some (.request id) →
      s.client.modems.Waits id filter → s.client.managers = 1 →
      (∀ e ∈ s.client.resets, e.2.stage.hasEnded = true) →
      ((s.step .dropManager).1.step (.poll target name)).2.answer = .failed .cancelled := by
  have hProper := Registry.Owned.proper_start hSound
  refine ⟨?_, ?_, ?_, ?_⟩
  · rw [Registry.outcome?_eq_cancelled_iff]
    exact hProper.cancelled_run_iff hNone moves
  · intro hManaged hCancelled
    rw [Registry.outcome?_eq_cancelled_iff] at hCancelled
    exact hProper.exists_newer_of_cancelled hNone hManaged hCancelled
  · intro config modems scene steps s hReached hLinked target id name hHeld hAnswer
    have hExplained : s.client.Explained := hReached ▸ explained_after config modems scene steps
    have hPoll :=
      (poll_request (s := { s with scene := s.scene.fresh }) hHeld name).symm.trans hAnswer
    have hOutcome : s.client.modems.outcome? id = some (.error .cancelled) := by
      cases hFuture : s.client.modems.outcome? id with
      | none => simp [hFuture] at hPoll
      | some x =>
        cases x with
        | ok m => simp [hFuture] at hPoll
        | error e => simpa [hFuture] using hPoll
    exact hExplained hLinked id (Registry.outcome?_eq_cancelled_iff.mp hOutcome)
  · intro s target id filter name hHeld hWaits hLast hResets
    exact poll_after_dropManager hHeld hWaits hLast hResets name

/-- Of two requests the first is replaced by the second, which is then left behind. -/
theorem both_requests_cancelled :
    let requested : List Step := [.awaitModem .any (some "p"), .awaitModem .any (some "q")]
    let bus : Scene := ⟨⟨true, true, [], []⟩, [], []⟩
    let s := (opened {} [] bus).after requested
    let owned := Registry.Owned.start (Registry.empty : Modems)
    ((s.step (.poll "p" none)).2.answer = .failed .cancelled ∧
        0 + 1 < s.client.modems.futures.length) ∧
      ((s.step .dropManager).1.step (.poll "q" none)).2.answer = .failed .cancelled ∧
      ∃ before m after filter,
        [.happened (.requested .any), .dropped, .stopped] = before ++ m :: after ∧
          (owned.run before).registry.Waits 0 filter ∧
          ((owned.run before).Supersedes m ∨ (owned.run before).Orphans m) ∧
          .happened (.dropped 0) ∉ after := by
  intro requested bus s owned
  obtain ⟨hIff, -, hReplaced, hOrphaned⟩ := cancelled_when_replaced_or_orphaned
    (Registry.empty : Modems) [.happened (.requested .any), .dropped, .stopped] 0
    Registry.sound_empty nofun
  have hLinked : s.client.isLinked = true := by
    subst s requested bus
    rfl
  have hFirst : s.held? "p" = some (.request 0) := by
    subst s requested bus
    rfl
  have hSecond : s.held? "q" = some (.request 1) := by
    subst s requested bus
    rfl
  have hAnswer : (s.step (.poll "p" none)).2.answer = .failed .cancelled := by
    subst s requested bus
    rfl
  have hWaits : s.client.modems.Waits 1 .any := by
    subst s requested bus
    exact ⟨rfl, rfl⟩
  have hLast : s.client.managers = 1 := by
    subst s requested bus
    rfl
  have hResets : s.client.resets = [] := by
    subst s requested bus
    rfl
  have hNewer := hReplaced {} [] bus requested s rfl hLinked "p" 0 none hFirst hAnswer
  have hLeft := hOrphaned s "q" 1 .any none hSecond hWaits hLast (by simp [hResets])
  exact ⟨⟨hAnswer, hNewer⟩, hLeft, hIff.mp rfl⟩

/-- The only request that was ever made is told that a newer one replaced it. -/
theorem replaced_by_nobody :
    let bus : Scene := ⟨⟨true, true, [], []⟩, [], []⟩
    let s := (opened {} [] bus).after [.awaitModem .any (some "r"), .dropManager]
    s.held? "r" = some (.request 0) ∧ s.client.modems.futures.length = 1 ∧
      (s.step (.poll "r" none)).2.answer = .failed .cancelled ∧
      Error.cancelled.message = "cancelled: a newer await request replaced this one" :=
  ⟨rfl, rfl, rfl, rfl⟩

end Session

end ModemLink
