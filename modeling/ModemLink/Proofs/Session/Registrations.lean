import Mathlib.Data.List.Pairwise
import ModemLink.Proofs.Session.Lifetime

/-!
# Who is told

Every observer reports under a tag. An observer that is told anything runs in a slot, and it got
there by a registration in this slot under its tag; what goes on in a session takes no observer from
one slot to another.

* `Board.Runs`: an observer with a tag runs in the slot with a key.
* `Client.Moved.runs`, `Client.Moved.told`: what a move does to the observers, and who is told.
* `Session.silent_after`: an observer that does not run is not told anything until another one is
  registered under its tag.
* `Session.Numbered`: no two names stand for handles of bearers that share observers.
* `Session.one_traffic_observer_per_handle`: a handle of a bearer has one observer, whatever the
  other handles of the bearer have.
-/

namespace ModemLink

open Observer (Slot)

variable {may : SlotKey → Watcher → Prop}

/-! ## Slots -/

namespace Observer.Slot

variable {W β : Type} {s : Slot W} {w : W}

theorem running?_update (f : W → W) (s : Slot W) :
    (s.update f).running? = s.running?.map f := by
  have hLast : (s.update f).last = s.last := by simp [last, update]
  rw [running?, hLast, update, getElem?_changeAt, if_pos rfl, running?]
  cases s.tasks[s.last]? with
  | none => rfl
  | some t => by_cases h : t.status = .running <;> simp [Task.feed, h]

/-- Only what a change does to the observer that runs counts. -/
theorem update_congr {f g : W → W} (h : ∀ w, s.running? = some w → f w = g w) :
    s.update f = s.update g := by
  refine congrArg Slot.mk (List.ext_getElem? fun p => ?_)
  have hTasks := fun f : W → W => getElem?_changeAt (Task.feed f) s.last p s
  simp only [changeAt] at hTasks
  rw [hTasks, hTasks]
  by_cases hLast : s.last = p
  · subst hLast
    cases hTask : s.tasks[s.last]? with
    | none => rfl
    | some t =>
      by_cases hRuns : t.status = .running
      · have hSame : f t.work = g t.work :=
          h t.work (by simp [running?, hTask, hRuns])
        simp [Task.feed, hRuns, hSame]
      · simp [Task.feed, hRuns]
  · rw [if_neg hLast, if_neg hLast]

theorem update_id (s : Slot W) : s.update id = s := by
  refine congrArg Slot.mk (List.ext_getElem? fun p => ?_)
  have hTasks := getElem?_changeAt (Task.feed id) s.last p s
  have hFeed : (Task.feed id : Task W → Task W) = id := by
    funext t
    unfold Task.feed
    split <;> rfl
  simp only [changeAt, hFeed, Option.map_id_fun, id_eq, ite_self] at hTasks
  rw [hFeed, hTasks]

theorem running?_abandon (s : Slot W) : s.abandon.running? = none := by
  have hLast : s.abandon.last = s.last := by simp [last, abandon]
  rw [running?, hLast, abandon, getElem?_changeAt, if_pos rfl]
  cases s.tasks[s.last]? with
  | none => rfl
  | some t => exact if_neg t.abort_not_running

theorem running?_register (s : Slot W) (w : W) : (s.register w).running? = some w := by
  have hLast : (s.register w).last = s.tasks.length := by simp [last]
  rw [running?, hLast, getElem?_register_length]
  rfl

theorem running?_eq_some_iff : s.running? = some w ↔
    ∃ t, s.tasks[s.last]? = some t ∧ t.status = .running ∧ t.work = w := by
  unfold running?
  cases s.tasks[s.last]? with
  | none => simp
  | some t => by_cases h : t.status = .running <;> simp [h]

/-- A poll tells what the running observer tells, if there is one. -/
theorem poll_of_running? (f : W → W × List β) (isDone : W → Bool) (h : s.running? = some w) :
    (∀ w', (s.poll f isDone).1.running? = some w' → w' = (f w).1) ∧
      (s.poll f isDone).2 = (f w).2 := by
  obtain ⟨t, hTask, hRuns, rfl⟩ := running?_eq_some_iff.mp h
  rw [poll, pollAt_eq f isDone .silent .work hTask]
  refine ⟨fun w' hAfter => ?_, by simp [(Task.poll_of_running hRuns).2, Shutdown.silent]⟩
  obtain ⟨t', hTask', -, rfl⟩ := running?_eq_some_iff.mp hAfter
  have hLast : (s.changeAt (fun t => (t.poll f isDone .silent .work).1) s.last).last = s.last := by
    simp [last]
  rw [hLast, getElem?_changeAt, if_pos rfl, hTask] at hTask'
  obtain rfl := Option.some.inj hTask'
  simp [Task.work_poll hRuns, Shutdown.silent]

theorem poll_of_none (f : W → W × List β) (isDone : W → Bool) (h : s.running? = none) :
    s.poll f isDone = (s, []) := by
  cases hTask : s.tasks[s.last]? with
  | none => rw [poll, pollAt, hTask]
  | some t =>
    have hOver : t.status ≠ .running := fun hRuns => by
      rw [running?_eq_some_iff.mpr ⟨t, hTask, hRuns, rfl⟩] at h
      cases h
    have hSame : s.tasks.set s.last t = s.tasks := by
      obtain ⟨hLt, rfl⟩ := List.getElem?_eq_some_iff.mp hTask
      exact List.set_getElem_self hLt
    rw [poll, pollAt, hTask]
    dsimp only
    rw [Task.poll_of_over hOver, hSame]

theorem last_poll (f : W → W × List β) (isDone : W → Bool) (s : Slot W) :
    (s.poll f isDone).1.last = s.last := by
  unfold poll pollAt
  split
  · rfl
  · simp [last]

end Observer.Slot

/-! ## Observers with their tags -/

namespace Watcher

variable {w : Watcher}

@[simp] theorem tag_reply (r : Bus.Reply) (w : Watcher) : (w.reply r).tag = w.tag := rfl

@[simp] theorem tag_poll (linked : Bool) (w : Watcher) : (w.poll linked).1.tag = w.tag := rfl

@[simp] theorem tag_hear (path interface member : String) (arguments : List Bus.Value)
    (w : Watcher) : (w.hear path interface member arguments).tag = w.tag := by
  unfold hear
  split <;> rfl

theorem tag_of_mem_poll {linked : Bool} {e : String × Notification} (h : e ∈ (w.poll linked).2) :
    e.1 = w.tag := by
  obtain ⟨n, -, rfl⟩ := List.mem_map.mp h
  rfl

end Watcher

/-- An observer with the tag runs in the slot. -/
def TaggedIn (tag : String) (slot : Slot Watcher) : Prop :=
  ∃ w, slot.running? = some w ∧ w.tag = tag

namespace Board

/-- An observer with the tag runs in the slot with the key. -/
def Runs (b : Board) (key : SlotKey) (tag : String) : Prop :=
  ∃ slot, (key, slot) ∈ b ∧ TaggedIn tag slot

end Board

namespace Client

theorem taggedIn_turnSlot {linked : Bool} {slot : Slot Watcher} {s : Scene} {tag : String}
    (h : TaggedIn tag (turnSlot linked slot s).1) : TaggedIn tag slot := by
  have hPolled : ∀ w', (slot.poll (Watcher.poll linked) Watcher.isDone).1.running? = some w' →
      ∃ w, slot.running? = some w ∧ w'.tag = w.tag := by
    intro w' hAfter
    cases hBefore : slot.running? with
    | none =>
      rw [Slot.poll_of_none _ _ hBefore, hBefore] at hAfter
      cases hAfter
    | some w =>
      obtain rfl := (Slot.poll_of_running? _ _ hBefore).1 w' hAfter
      exact ⟨w, rfl, rfl⟩
  obtain ⟨w', hAfter, rfl⟩ := h
  unfold turnSlot at hAfter
  dsimp only at hAfter
  split at hAfter
  · obtain ⟨w, hBefore, hTag⟩ := hPolled w' hAfter
    exact ⟨w, hBefore, hTag.symm⟩
  · rw [Slot.running?_update] at hAfter
    obtain ⟨replied, hPolledAfter, rfl⟩ := Option.map_eq_some_iff.mp hAfter
    obtain ⟨w, hBefore, hTag⟩ := hPolled replied hPolledAfter
    exact ⟨w, hBefore, hTag.symm⟩

theorem told_turnSlot {linked : Bool} {slot : Slot Watcher} {s : Scene} {e : String × Notification}
    (h : e ∈ (turnSlot linked slot s).2.events) : e ∈ s.events ∨ TaggedIn e.1 slot := by
  have hEvents : (turnSlot linked slot s).2.events =
      s.events ++ (slot.poll (Watcher.poll linked) Watcher.isDone).2 := by
    unfold turnSlot
    dsimp only
    split <;> rfl
  rw [hEvents] at h
  rcases List.mem_append.mp h with hOld | hNew
  · exact .inl hOld
  · cases hBefore : slot.running? with
    | none =>
      rw [Slot.poll_of_none _ _ hBefore] at hNew
      cases hNew
    | some w =>
      rw [(Slot.poll_of_running? _ _ hBefore).2] at hNew
      exact .inr ⟨w, hBefore, (Watcher.tag_of_mem_poll hNew).symm⟩

theorem mem_turnBoard {linked : Bool} {b : Board} {s : Scene} {e : SlotKey × Slot Watcher}
    (h : e ∈ (turnBoard linked b s).1 ++ (turnBoard linked b s).2.1) :
    ∃ slot s', (e.1, slot) ∈ b ∧ e.2 = (turnSlot linked slot s').1 := by
  induction b generalizing s with
  | nil => cases h
  | cons first rest ih =>
    have hCases : e = (first.1, (turnSlot linked first.2 s).1) ∨
        e ∈ (turnBoard linked rest (turnSlot linked first.2 s).2).1 ++
          (turnBoard linked rest (turnSlot linked first.2 s).2).2.1 := by
      simp only [turnBoard] at h
      split at h
      · rw [List.mem_append, List.mem_cons] at h
        rw [List.mem_append]
        tauto
      · rw [List.mem_append, List.mem_cons] at h
        rw [List.mem_append]
        tauto
    rcases hCases with rfl | hRest
    · exact ⟨first.2, s, List.mem_cons_self, rfl⟩
    · obtain ⟨slot, s', hMem, hEq⟩ := ih hRest
      exact ⟨slot, s', List.mem_cons_of_mem _ hMem, hEq⟩

theorem told_turnBoard {linked : Bool} {b : Board} {s : Scene} {e : String × Notification}
    (h : e ∈ (turnBoard linked b s).2.2.events) : e ∈ s.events ∨ ∃ key, b.Runs key e.1 := by
  induction b generalizing s with
  | nil => exact .inl h
  | cons first rest ih =>
    have hRest : e ∈ (turnBoard linked rest (turnSlot linked first.2 s).2).2.2.events := by
      simp only [turnBoard] at h
      split at h <;> exact h
    rcases ih hRest with hFirst | ⟨key, slot, hMem, hTagged⟩
    · rcases told_turnSlot hFirst with hOld | hTagged
      · exact .inl hOld
      · exact .inr ⟨first.1, first.2, List.mem_cons_self, hTagged⟩
    · exact .inr ⟨key, slot, List.mem_cons_of_mem _ hMem, hTagged⟩

theorem events_turnResets (linked : Bool) (resets : List (Nat × RunningReset)) (modems : Modems)
    (s : Scene) : (turnResets linked resets modems s).2.2.events = s.events := by
  induction resets generalizing modems s with
  | nil => rfl
  | cons e rest ih =>
    have hFirst : (turnReset linked e.2 modems s).2.2.events = s.events := by
      unfold turnReset
      dsimp only
      split <;> rfl
    exact (ih _ _).trans hFirst

theorem runs_unlink {c : Client} {key : SlotKey} {tag : String}
    (h : c.unlink.board.Runs key tag) : c.board.Runs key tag := by
  unfold unlink at h
  split at h
  · exact h
  · obtain ⟨slot, hMem, w, hRuns, -⟩ := h
    obtain ⟨e, -, hEq⟩ := List.mem_map.mp hMem
    cases hEq
    rw [Slot.running?_finish] at hRuns
    cases hRuns

/-- An observer that runs after a move ran before it in the same slot, unless the move has
registered it there. -/
theorem Moved.runs {x y : Client × Scene} (h : Moved may x y) {key : SlotKey} {tag : String}
    (hRuns : y.1.board.Runs key tag) :
    x.1.board.Runs key tag ∨ ∃ w, may key w ∧ w.tag = tag := by
  cases h with
  | delivered c s path interface member arguments =>
    obtain ⟨slot, hMem, w, hAfter, rfl⟩ := hRuns
    obtain ⟨e, hOld, hEq⟩ := List.mem_map.mp hMem
    cases hEq
    rw [Slot.running?_update] at hAfter
    obtain ⟨heard, hBefore, rfl⟩ := Option.map_eq_some_iff.mp hAfter
    exact .inl ⟨e.2, hOld, heard, hBefore, by simp⟩
  | turnedTracker c s =>
    obtain ⟨tracker, scene, -, hTurn⟩ := c.turnTracker_eq s
    rw [hTurn] at hRuns
    exact .inl hRuns
  | turnedObservers c s =>
    obtain ⟨slot', hMem, hTagged⟩ := hRuns
    obtain ⟨slot, s', hOld, hTurned⟩ := mem_turnBoard hMem
    obtain rfl : slot' = (turnSlot c.isLinked slot s').1 := hTurned
    exact .inl ⟨slot, hOld, taggedIn_turnSlot hTagged⟩
  | unlinked c s => exact .inl (runs_unlink hRuns)
  | expired c s ended =>
    rw [expire_eq] at hRuns
    dsimp only at hRuns
    have hBefore := runs_unlink hRuns
    exact .inl hBefore
  | @registered c s other w hMay =>
    obtain ⟨slot, hMem, w', hAfter, rfl⟩ := hRuns
    rcases List.mem_append.mp hMem with hOld | hNew
    · exact .inl ⟨slot, (List.mem_filter.mp hOld).1, w', hAfter, rfl⟩
    · cases List.mem_singleton.mp hNew
      rw [Slot.running?_register] at hAfter
      exact .inr ⟨w, hMay, congrArg Watcher.tag (Option.some.inj hAfter)⟩
  | kept c s owned =>
    obtain ⟨slot, hMem, w, hAfter, hTag⟩ := hRuns
    obtain ⟨e, hOld, hEq⟩ := List.mem_map.mp hMem
    split at hEq
    · exact .inl ⟨slot, hEq ▸ hOld, w, hAfter, hTag⟩
    · cases hEq
      rw [Slot.running?_abandon] at hAfter
      cases hAfter
  | _ => exact .inl hRuns

theorem Moved.fresh {x y : Client × Scene} (h : Moved may x y) : x.1.fresh ≤ y.1.fresh := by
  cases h with
  | turnedTracker c s =>
    obtain ⟨tracker, scene, -, hTurn⟩ := c.turnTracker_eq s
    rw [hTurn]
    exact Nat.le_succ _
  | unlinked c s => exact Nat.le_of_eq c.fresh_unlink.symm
  | expired c s ended => simp only [expire_eq, fresh_unlink, Nat.le_refl]
  | began s m hManaged => exact Nat.le_succ _
  | numbered c s => exact Nat.le_succ _
  | _ => exact Nat.le_refl _

/-- Whoever is told something in a move ran before it. -/
theorem Moved.told {x y : Client × Scene} (h : Moved may x y) {e : String × Notification}
    (hTold : e ∈ y.2.events) : e ∈ x.2.events ∨ ∃ key, x.1.board.Runs key e.1 := by
  cases h with
  | seen c hEvents => exact .inl (hEvents hTold)
  | turnedTracker c s =>
    obtain ⟨tracker, scene, hEvents, hTurn⟩ := c.turnTracker_eq s
    rw [hTurn] at hTold
    exact .inl (hEvents ▸ hTold)
  | turnedObservers c s => exact told_turnBoard hTold
  | turnedResets c s => exact .inl (events_turnResets _ _ _ _ ▸ hTold)
  | _ => exact .inl hTold

end Client

/-! ## Silence -/

/-- The tag of a step that may register an observer. -/
def Session.Step.tag? : Session.Step → Option String
  | .call _ tag _ _ => some tag
  | _ => none

namespace Session

variable {s : Session} {tag : String}

theorem Registers.tag? {step : Step} {key : SlotKey} (h : s.Registers step key tag) :
    step.tag? = some tag := by
  cases step with
  | call target other name call => exact congrArg some h.1.symm
  | _ => cases h

/-- No observer with the tag runs, and none was told anything. -/
def Silent (tag : String) (x : Client × Scene) : Prop :=
  (∀ key, ¬ x.1.board.Runs key tag) ∧ ∀ e ∈ x.2.events, e.1 ≠ tag

theorem Silent.moved {x y : Client × Scene} (hMoved : Client.Moved may x y)
    (hMay : ∀ key w, may key w → w.tag ≠ tag) (h : Silent tag x) : Silent tag y := by
  constructor
  · intro key hRuns
    rcases hMoved.runs hRuns with hBefore | ⟨w, hRegistered, hTag⟩
    · exact h.1 key hBefore
    · exact hMay key w hRegistered hTag
  · intro e hTold hTag
    rcases hMoved.told hTold with hBefore | ⟨key, hRuns⟩
    · exact h.2 e hBefore hTag
    · exact h.1 key (hTag ▸ hRuns)

theorem silent_step (h : ∀ key, ¬ s.client.board.Runs key tag) {step : Step}
    (hOther : step.tag? ≠ some tag) :
    Silent tag ((s.step step).1.client, (s.step step).1.scene) := by
  have hFresh : Silent tag (s.client, s.scene.fresh) := ⟨h, fun _ hTold => nomatch hTold⟩
  exact (s.leads_step_fresh step).keeps (I := Silent tag)
    (fun x y hMoved => Silent.moved hMoved fun key w hRegisters hTag =>
      hOther (hTag ▸ hRegisters.tag?)) hFresh

/-- As long as nobody is registered under a tag, nobody with the tag is told anything. -/
theorem silent_after (h : ∀ key, ¬ s.client.board.Runs key tag) {steps : List Step}
    (hOther : ∀ step ∈ steps, step.tag? ≠ some tag) :
    ∀ entry ∈ s.runSteps steps, ∀ e ∈ entry.events, e.1 ≠ tag := by
  induction steps generalizing s with
  | nil => exact fun _ hMem => nomatch hMem
  | cons step rest ih =>
    have hStep := silent_step h (hOther step List.mem_cons_self)
    intro entry hMem
    rcases List.mem_cons.mp hMem with rfl | hRest
    · exact hStep.2
    · have hRestOther : ∀ step ∈ rest, step.tag? ≠ some tag :=
        fun later hLater => hOther later (List.mem_cons_of_mem _ hLater)
      exact ih hStep.1 hRestOther entry hRest

theorem Silent.settle (h : Silent tag (s.client, s.scene)) :
    Silent tag (s.settle.client, s.settle.scene) := by
  have hSettles : Leads (fun _ _ => False) s s.settle := leads_settle s
  exact hSettles.keeps (I := Silent tag)
    (fun x y hMoved => Silent.moved hMoved fun _ _ hNone => hNone.elim) h

/-- Nobody with a tag is told anything in a step either, if nobody is when it has had its effect. -/
theorem silent_of_act {step : Step} {x : Session × Answer}
    (hEffect : ({ s with scene := s.scene.fresh } : Session).act step = x)
    (h : Silent tag (x.1.client, x.1.scene)) {later : List Step}
    (hOther : ∀ step ∈ later, step.tag? ≠ some tag) :
    ∀ entry ∈ s.runSteps (step :: later), ∀ e ∈ entry.events, e.1 ≠ tag := by
  subst hEffect
  intro entry hMem
  rcases List.mem_cons.mp hMem with rfl | hLater
  · exact h.settle.2
  · have hNone : ∀ key, ¬ (s.step step).1.client.board.Runs key tag := h.settle.1
    exact silent_after hNone hOther entry hLater

/-! ## One slot -/

/-- Observers with the tag run in one slot only. -/
def Confined (tag : String) (key : SlotKey) (b : Board) : Prop := ∀ k, b.Runs k tag → k = key

theorem Confined.step {key : SlotKey} (h : Confined tag key s.client.board) (step : Step)
    (hMay : ∀ k, s.Registers step k tag → k = key) :
    Confined tag key (s.step step).1.client.board := by
  refine (s.leads_step step).keeps (I := fun x => Confined tag key x.1.board) ?_ h
  intro x y hMoved hBefore k hRuns
  rcases hMoved.runs hRuns with hOld | ⟨w, hRegisters, rfl⟩
  · exact hBefore k hOld
  · exact hMay k hRegisters

theorem Confined.after {key : SlotKey} (h : Confined tag key s.client.board) {steps : List Step}
    (hOther : ∀ step ∈ steps, step.tag? ≠ some tag) :
    Confined tag key (s.after steps).client.board := by
  induction steps generalizing s with
  | nil => exact h
  | cons step rest ih =>
    have hStep := h.step step fun k hRegisters =>
      absurd hRegisters.tag? (hOther step List.mem_cons_self)
    exact ih hStep fun later hLater => hOther later (List.mem_cons_of_mem _ hLater)

theorem not_runs_register {b : Board} {key : SlotKey} {w : Watcher} (h : Confined tag key b)
    (hNew : w.tag ≠ tag) (k : SlotKey) : ¬ (b.register key w).Runs k tag := by
  rintro ⟨slot, hMem, w', hRuns, hTag⟩
  rcases List.mem_append.mp hMem with hOld | hLast
  · obtain ⟨hOld, hKey⟩ := List.mem_filter.mp hOld
    obtain rfl := h k ⟨slot, hOld, w', hRuns, hTag⟩
    simp at hKey
  · cases List.mem_singleton.mp hLast
    rw [Slot.running?_register] at hRuns
    exact hNew (Option.some.inj hRuns ▸ hTag)

end Session

namespace Board

theorem slot_register_of_ne {b : Board} {key other : SlotKey} (h : other ≠ key) (w : Watcher) :
    (b.register key w).slot other = b.slot other := by
  have hFilter : (b.filter fun e => e.1 != key).lookup other = b.lookup other := by
    induction b with
    | nil => rfl
    | cons e rest ih =>
      obtain ⟨k, slot⟩ := e
      by_cases hKey : k = key
      · have hNe : (other == k) = false := by simpa [hKey] using h
        simp only [List.filter_cons, hKey, bne_self_eq_false, Bool.false_eq_true, if_false,
          List.lookup_cons, ih]
        rw [show (other == key) = false from by simpa using h]
      · simp only [List.filter_cons, bne_iff_ne, ne_eq, hKey, not_false_eq_true, if_true,
          List.lookup_cons, ih]
  have hLast : (other == key) = false := by simpa using h
  simp only [slot, register, List.lookup_append, hFilter, List.lookup_cons, hLast,
    List.lookup_nil, Option.or_none]

theorem slot_register (b : Board) (key : SlotKey) (w : Watcher) :
    (b.register key w).slot key = (b.slot key).register w := by
  have hNone : (b.filter fun e => e.1 != key).lookup key = none := by
    rw [List.lookup_eq_none_iff]
    intro e hMem
    rw [bne_comm]
    exact (List.mem_filter.mp hMem).2
  simp [slot, register, List.lookup_append, hNone]

end Board

/-! ## Successful registrations -/

namespace Session

variable {s : Session} {tag : String}

/-- A call that observes registers in the slot of its handle and kind and does nothing else to the
client, or it fails and does nothing to the client at all. -/
theorem call_observing {target : String} {h : Held} {call : Call} {p : Request Call.Result}
    {owner : Nat} {kind : WatchKind} (hHeld : s.held? target = some h)
    (hCall : s.callOn? h call = some (p, owner)) (hKind : call.watchKind? = some kind)
    (tag : String) (name : Option String) :
    ∃ scene : Scene, scene.events = s.scene.events ∧
      ((∃ w, s.call target tag name call =
        ({ s with
          client := { s.client with
            board := s.client.board.register ⟨owner, kind⟩ (.ofWatch tag w) }
          scene }, .nothing)) ∨
        ∃ e, s.call target tag name call = ({ s with scene }, .failed e)) := by
  have hBind : (s.held? target).bind (fun h => s.callOn? h call) = some (p, owner) := by
    rw [hHeld]
    exact hCall
  refine ⟨(s.request p).1.scene, s.scene.events_run p s.client.isLinked, ?_⟩
  simp only [Session.call, hBind, request]
  cases hResult : (p.run Scene.ask s.client.isLinked s.scene).result with
  | error e => exact .inr ⟨e, rfl⟩
  | ok r =>
    have hWatch : r.kind? = some kind := (kind?_of_request hCall hResult).trans hKind
    cases r with
    | watch k w =>
      obtain rfl : k = kind := Option.some.inj hWatch
      exact .inl ⟨w, rfl⟩
    | _ => cases hWatch

/-- Once a call has registered an observer in the slot to which a tag is confined, nobody with the
tag is told anything. -/
theorem silent_of_registered {old : String} {target : String} {h : Held} {call : Call}
    {p : Request Call.Result} {owner : Nat} {kind : WatchKind} (hHeld : s.held? target = some h)
    (hCall : s.callOn? h call = some (p, owner)) (hKind : call.watchKind? = some kind)
    (hOld : Confined old ⟨owner, kind⟩ s.client.board) (hNew : tag ≠ old) {name : Option String}
    (hDone : (s.step (.call target tag name call)).2.answer = .nothing) {later : List Step}
    (hOther : ∀ step ∈ later, step.tag? ≠ some old) :
    ∀ entry ∈ s.runSteps (.call target tag name call :: later), ∀ e ∈ entry.events, e.1 ≠ old := by
  let started : Session := { s with scene := s.scene.fresh }
  have hAnswer : (started.call target tag name call).2 = .nothing := hDone
  refine silent_of_act rfl ?_ hOther
  obtain ⟨scene, hEvents, ⟨w, hCalled⟩ | ⟨e, hFailed⟩⟩ :=
    started.call_observing hHeld hCall hKind tag name
  · simp only [act]
    rw [hCalled]
    refine ⟨not_runs_register (w := .ofWatch tag w) hOld hNew, fun e hTold => ?_⟩
    rw [hEvents] at hTold
    cases hTold
  · rw [hFailed] at hAnswer
    cases hAnswer

/-! ## Numbers -/

/-- Two names do not stand for handles of bearers that share observers. -/
def Apart (e e' : String × Held) : Prop :=
  ∀ b b', e.2 = .bearer b → e'.2 = .bearer b' → b.handle ≠ b'.handle

instance : Std.Symm Apart := ⟨fun _ _ h b b' hb hb' => (h b' b hb' hb).symm⟩

/-- All handles of bearers have numbers of their own, below the next one. -/
structure Numbered (s : Session) : Prop where
  apart : s.held.Pairwise Apart
  below : ∀ e ∈ s.held, ∀ b, e.2 = .bearer b → b.handle < s.client.fresh

namespace Numbered

theorem of_sublist {s' : Session} (h : s.Numbered) (hHeld : s'.held.Sublist s.held)
    (hFresh : s.client.fresh ≤ s'.client.fresh) : s'.Numbered where
  apart := h.apart.sublist hHeld
  below e hMem b hBearer := Nat.lt_of_lt_of_le (h.below e (hHeld.subset hMem) b hBearer) hFresh

theorem release (h : s.Numbered) (x : Held) : (s.release x).Numbered := by
  cases x <;> exact ⟨h.apart, h.below⟩

theorem forget (h : s.Numbered) (name : String) : (s.forget name).Numbered := by
  unfold Session.forget
  split
  · exact h
  · have hFewer : Numbered { s with held := s.held.filter fun e => e.1 != name } :=
      h.of_sublist List.filter_sublist (Nat.le_refl _)
    exact hFewer.release _

/-- What is no bearer can be kept under any name. -/
theorem keep (h : s.Numbered) (name : Option String) {x : Held} (hOther : ∀ b, x ≠ .bearer b) :
    (s.keep name x).Numbered := by
  cases name with
  | none => exact h.release x
  | some name =>
    have hForgotten := h.forget name
    refine ⟨List.pairwise_cons.mpr ⟨fun e _ b _ hBearer => absurd hBearer (hOther b),
      hForgotten.apart⟩, fun e hMem b hBearer => ?_⟩
    rcases List.mem_cons.mp hMem with rfl | hMem
    · exact absurd hBearer (hOther b)
    · exact hForgotten.below e hMem b hBearer

theorem keepModem (h : s.Numbered) (name : Option String) (m : Option (Tracked Nat)) :
    (s.keepModem name m).Numbered := by
  cases m with
  | none => exact h
  | some m => exact h.keep name nofun

theorem fresh_forget (s : Session) (name : String) :
    (s.forget name).client.fresh = s.client.fresh := by
  unfold Session.forget
  split
  · rfl
  · rename_i x _
    cases x <;> rfl

/-- The handle of a bearer gets a number that no other handle has had. -/
theorem keepBearer (h : s.Numbered) (name : Option String) (path : String) :
    (s.keepBearer name path).Numbered := by
  cases name with
  | none => exact h.of_sublist (List.Sublist.refl _) (Nat.le_succ _)
  | some name =>
    have hForgotten := h.forget name
    have hFresh := fresh_forget s name
    have hBelow : ∀ e ∈ (s.forget name).held, ∀ b, e.2 = .bearer b → b.handle < s.client.fresh :=
      fun e hMem b hBearer => hFresh ▸ hForgotten.below e hMem b hBearer
    refine ⟨List.pairwise_cons.mpr ⟨fun e hMem b b' hNew hOld => ?_, hForgotten.apart⟩,
      fun e hMem b hBearer => ?_⟩
    · obtain rfl := Held.bearer.inj hNew
      exact Nat.ne_of_gt (hBelow e hMem b' hOld)
    · show b.handle < (s.forget name).client.fresh + 1
      rw [hFresh]
      rcases List.mem_cons.mp hMem with rfl | hMem
      · obtain rfl := Held.bearer.inj hBearer
        exact Nat.lt_succ_self _
      · exact Nat.lt_succ_of_lt (hBelow e hMem b hBearer)

theorem keepBearers (h : s.Numbered) (name : Option String) (place : Nat) (paths : List String) :
    (s.keepBearers name place paths).Numbered := by
  induction paths generalizing s place with
  | nil => exact h
  | cons path rest ih => exact ih (h.keepBearer _ path) _

theorem of_leads {s' : Session} (h : s.Numbered) (hHeld : s'.held = s.held)
    (hLeads : Leads (fun _ _ => False) s s') : s'.Numbered :=
  h.of_sublist (hHeld ▸ List.Sublist.refl _)
    (hLeads.keeps (I := fun x => s.client.fresh ≤ x.1.fresh)
      (fun _ _ hMoved hBefore => Nat.le_trans hBefore hMoved.fresh) (Nat.le_refl _))

theorem settle (h : s.Numbered) : s.settle.Numbered :=
  h.of_leads rfl (leads_settle s)

theorem request {α : Type} (h : s.Numbered) (p : Request α) : (s.request p).1.Numbered :=
  ⟨h.apart, h.below⟩

theorem send (h : s.Numbered) (path interface member : String) (body : List Bus.Value) :
    (s.send path interface member body).Numbered := by
  refine h.of_leads ?_ (s.leads_send path interface member body)
  unfold Session.send
  dsimp only
  split <;> rfl

theorem giveOutcome (h : s.Numbered) (name : Option String) (r : Except Error (Tracked Nat)) :
    (s.giveOutcome name r).1.Numbered := by
  cases r with
  | ok m => exact h.keepModem name (some m)
  | error e => exact h

theorem poll (h : s.Numbered) (target : String) (name : Option String) :
    (s.poll target name).1.Numbered := by
  unfold Session.poll
  dsimp only
  split
  · exact h
  · exact h
  · exact (h.forget target).giveOutcome name _

theorem resetModem (h : s.Numbered) (hManaged : s.client.managers ≠ 0) (target : String)
    (background : Bool) (name : Option String) :
    (s.resetModem target background name).1.Numbered := by
  unfold Session.resetModem
  split
  · exact h
  · rename_i m _
    split
    · have hBegun : Numbered { s with client := (s.client.beginReset m).1 } :=
        h.of_leads rfl (s.leads_beginReset m hManaged)
      exact hBegun.keep name nofun
    · have hReset : (s.resetNow m).1.Numbered :=
        h.of_leads (by rw [resetNow_eq]; rfl) (s.leads_resetNow m hManaged)
      generalize s.resetNow m = reset at hReset ⊢
      exact hReset.giveOutcome name _

theorem receive (h : s.Numbered) (owner : Nat) (tag : String) (name : Option String)
    (r : Call.Result) : (s.receive owner tag name r).1.Numbered := by
  cases r with
  | sim path =>
    cases path with
    | none => exact h
    | some path => exact h.keep name nofun
  | bearer path =>
    cases path with
    | none => exact h
    | some path => exact h.keepBearer name path
  | bearers paths => exact h.keepBearers name 0 paths
  | watch kind w => exact ⟨h.apart, h.below⟩
  | _ => exact h

theorem call (h : s.Numbered) (target tag : String) (name : Option String) (call : Call) :
    (s.call target tag name call).1.Numbered := by
  unfold Session.call
  split
  · exact h
  · rename_i p owner _
    have hRequest := h.request p
    generalize s.request p = requested at hRequest ⊢
    obtain ⟨s', r⟩ := requested
    cases r with
    | ok r => exact hRequest.receive owner tag name r
    | error e => exact hRequest

theorem give {α : Type} {f : α → Answer} {r : Session × Except Error α} (h : r.1.Numbered) :
    (give f r).1.Numbered := by
  obtain ⟨s', x⟩ := r
  cases x <;> exact h

theorem useManager (h : s.Numbered) (hManaged : s.client.managers ≠ 0) (step : Step) :
    (s.useManager step).1.Numbered := by
  cases step with
  | version => exact give (h.request _)
  | scanDevices => exact give (h.request _)
  | anyModem name => exact h.keepModem name _
  | modemAt index name => exact h.keepModem name _
  | awaitModem filter name =>
    have hRequested : Numbered { s with
        client := { s.client with modems := (s.client.modems.await filter).1 } } :=
      ⟨h.apart, h.below⟩
    exact hRequested.keep name nofun
  | resetModem target background name => exact h.resetModem hManaged target background name
  | _ => exact h

theorem act (h : s.Numbered) (step : Step) : (s.act step).1.Numbered := by
  have hWorld (f : Bus.World → Bus.World) : (s.changeWorld f).Numbered := ⟨h.apart, h.below⟩
  have hManager :
      (if s.client.managers = 0 then (s, Answer.noManager) else s.useManager step).1.Numbered := by
    split
    · exact h
    · exact h.useManager ‹_› step
  cases step with
  | set path interface property content => exact hWorld _
  | script path method replies => exact hWorld _
  | services modemManager networkManager => exact hWorld _
  | added path interfaces => exact (hWorld _).send _ _ _ _
  | removed path interfaces => exact (hWorld _).send _ _ _ _
  | emit path interface member body => exact h.send path interface member body
  | cloneManager =>
    simp only [Session.act]
    split <;> exact ⟨h.apart, h.below⟩
  | dropManager => exact ⟨h.apart, h.below⟩
  | poll target name => exact h.poll target name
  | drop target => exact h.forget target
  | path target =>
    simp only [Session.act]
    split <;> exact h
  | clone target name =>
    simp only [Session.act]
    split
    · exact h.keep name (by rintro _ ⟨⟩)
    · exact h
  | call target tag name call => exact h.call target tag name call
  | _ => exact hManager

theorem step (h : s.Numbered) (step : Step) : (s.step step).1.Numbered := by
  have hFresh : Numbered { s with scene := s.scene.fresh } := ⟨h.apart, h.below⟩
  exact (hFresh.act step).settle

theorem after (h : s.Numbered) (steps : List Step) : (s.after steps).Numbered := by
  induction steps generalizing s with
  | nil => exact h
  | cons step rest ih => exact ih (h.step step)

theorem ne_of_held {target other : String} {b b' : Tracked Nat} (h : s.Numbered)
    (hNames : target ≠ other) (hHeld : s.held? target = some (.bearer b))
    (hOther : s.held? other = some (.bearer b')) : b.handle ≠ b'.handle := by
  have hMem : ∀ {name x}, s.held? name = some x → (name, x) ∈ s.held := by
    intro name x hName
    obtain ⟨first, rest, hSplit, -⟩ := List.lookup_eq_some_iff.mp hName
    simp [hSplit]
  have hEntries : (target, Held.bearer b) ≠ (other, Held.bearer b') :=
    fun hSame => hNames (congrArg Prod.fst hSame)
  exact h.apart.forall (hMem hHeld) (hMem hOther) hEntries b b' rfl rfl

end Numbered

/-- **A handle of a bearer has one traffic observer.** Let an observer be registered under a tag
through a handle of a bearer, and let anything happen but another registration under this tag. Once
a later call has registered an observer through this handle or a clone of it, the earlier one is not
told anything any more, whatever follows.

In every session the handles of bearers that were given have slots of their own, also those of one
bearer, and a registration through one of them leaves the slots of the others as they are. -/
theorem one_traffic_observer_per_handle :
    (∀ (s : Session) (b : Tracked Nat) old target name interval before,
      (∀ key, ¬ s.client.board.Runs key old) → s.held? target = some (.bearer b) →
      (∀ step ∈ before, step.tag? ≠ some old) →
      ∀ held target' (b' : Tracked Nat) new name' interval' later s',
        s' = { s.after (.call target old name (.observeTraffic interval) :: before) with held } →
        s'.held? target' = some (.bearer b') → b'.handle = b.handle → new ≠ old →
        (s'.step (.call target' new name' (.observeTraffic interval'))).2.answer = .nothing →
        (∀ step ∈ later, step.tag? ≠ some old) →
        ∀ entry ∈ s'.runSteps (.call target' new name' (.observeTraffic interval') :: later),
          ∀ e ∈ entry.events, e.1 ≠ old) ∧
    ∀ config modems scene steps s, s = (opened config modems scene).after steps →
      ∀ target other (b b' : Tracked Nat), target ≠ other →
        s.held? target = some (.bearer b) → s.held? other = some (.bearer b') →
        b.handle ≠ b'.handle ∧ ∀ tag name interval,
          (s.call target tag name (.observeTraffic interval)).1.client.board.slot
              ⟨b'.handle, .traffic⟩ =
            s.client.board.slot ⟨b'.handle, .traffic⟩ := by
  constructor
  · intro s b old target name interval before hNone hHeld hBefore held target' b' new name'
      interval' later s' hReached hHeld' hShared hNew hDone hLater
    have hConfined : Confined old ⟨b.handle, .traffic⟩ s.client.board :=
      fun k hRuns => absurd hRuns (hNone k)
    have hRegistered : Confined old ⟨b.handle, .traffic⟩
        (s.step (.call target old name (.observeTraffic interval))).1.client.board := by
      refine hConfined.step _ fun k hRegisters => ?_
      obtain ⟨-, hKind, h, p, hTarget, hCall⟩ := hRegisters
      obtain rfl := Option.some.inj (hTarget.symm.trans hHeld)
      have hOwner : b.handle = k.owner := congrArg Prod.snd (Option.some.inj hCall)
      have hTraffic : .traffic = k.kind := Option.some.inj hKind
      rw [hOwner, hTraffic]
    have hStays : Confined old ⟨b'.handle, .traffic⟩ s'.client.board := by
      rw [hReached, hShared]
      exact hRegistered.after hBefore
    exact silent_of_registered hHeld' rfl rfl hStays hNew hDone hLater
  · intro config modems scene steps s hReached target other b b' hNames hHeld hOther
    have hNumbered : s.Numbered := by
      rw [hReached]
      exact Numbered.after ⟨.nil, fun e hMem => absurd hMem List.not_mem_nil⟩ steps
    have hApart := hNumbered.ne_of_held hNames hHeld hOther
    refine ⟨hApart, fun tag name interval => ?_⟩
    have hKeys : (⟨b'.handle, .traffic⟩ : SlotKey) ≠ ⟨b.handle, .traffic⟩ :=
      fun hSame => hApart (congrArg SlotKey.owner hSame).symm
    have hCall : s.callOn? (.bearer b) (.observeTraffic interval) = some (_, b.handle) := rfl
    obtain ⟨later, -, ⟨w, hCalled⟩ | ⟨e, hFailed⟩⟩ := s.call_observing hHeld hCall rfl tag name
    · rw [hCalled]
      exact Board.slot_register_of_ne hKeys _
    · rw [hFailed]

/-- A bus on which a modem has a bearer, whose network interface is counted by a device. -/
def countedBearer : Bus.World :=
  let bearer := "/org/freedesktop/ModemManager1/Bearer/0"
  let device := "/org/freedesktop/NetworkManager/Devices/3"
  let modem : String × Bus.Interfaces :=
    ("/org/freedesktop/ModemManager1/Modem/0",
      [(Bus.Interface.modem, [("Bearers", .value (.paths [bearer]) false)]),
        (Bus.Interface.modem3gpp, [("Imei", .value (.string "356938035643809") false)])])
  let connection : String × Bus.Interfaces :=
    (bearer, [(Bus.Interface.bearer, [("Interface", .value (.string "wwan0") false)])])
  let counters : String × Bus.Interfaces :=
    (device,
      [(Bus.Interface.statistics,
        [("RefreshRateMs", .value (.uint32 0) false), ("RxBytes", .value (.uint64 1) false),
          ("TxBytes", .value (.uint64 2) false)])])
  ⟨true, true, [modem, connection, counters],
    [((Bus.networkPath, "org.freedesktop.NetworkManager.GetDeviceByIpIface"),
      [.ok [.path device]])]⟩

/-- The modem is asked for its connections twice. -/
def connectedTwice : List Step :=
  [.anyModem (some "m"), .call "m" "" (some "a") .connections,
    .call "m" "" (some "b") .connections]

/-- A registration through a handle. -/
def observing (target tag : String) : Step := .call target tag none (.observeTraffic 1000)

/-- The device tells that its counters have changed. -/
def counted : Step :=
  .emit "/org/freedesktop/NetworkManager/Devices/3" Bus.Interface.properties "PropertiesChanged"
    [.string Bus.Interface.statistics, .dictionary [("RxBytes", .uint64 1)], .strings []]

/-- The session on this bus with two handles of the bearer, through neither of which an observer was
registered. -/
def twiceConnected : Session :=
  (opened {} [("/org/freedesktop/ModemManager1/Modem/0", "356938035643809")]
    ⟨countedBearer, [], []⟩).after connectedTwice

/-- The session after an observer was registered through the first of them. -/
def onceObserved : Session := twiceConnected.after [observing "a0" "first"]

/-- A second observer is registered through a handle, and then one through another handle of the
bearer. -/
theorem second_traffic_observer_told :
    ((onceObserved.step (observing "a0" "second")).2.answer = .nothing ∧
        ∀ entry ∈ onceObserved.runSteps [observing "a0" "second", counted],
          ∀ e ∈ entry.events, e.1 ≠ "first") ∧
      (onceObserved.call "b0" "third" none (.observeTraffic 1000)).1.client.board.slot
          ⟨1, .traffic⟩ =
        onceObserved.client.board.slot ⟨1, .traffic⟩ := by
  obtain ⟨hSilent, hApart⟩ := one_traffic_observer_per_handle
  have hNone : ∀ key, ¬ twiceConnected.client.board.Runs key "first" := by
    rintro key ⟨slot, hMem, -⟩
    have hEmpty : twiceConnected.client.board = [] := rfl
    rw [hEmpty] at hMem
    cases hMem
  have hBefore : twiceConnected.held? "a0" =
      some (.bearer ⟨"/org/freedesktop/ModemManager1/Bearer/0", 1⟩) := rfl
  have hHeld : onceObserved.held? "a0" =
      some (.bearer ⟨"/org/freedesktop/ModemManager1/Bearer/0", 1⟩) := rfl
  have hOther : onceObserved.held? "b0" =
      some (.bearer ⟨"/org/freedesktop/ModemManager1/Bearer/0", 2⟩) := rfl
  have hDone : (onceObserved.step (observing "a0" "second")).2.answer = .nothing := rfl
  have hEvents := hSilent twiceConnected _ "first" "a0" none 1000 [] hNone hBefore nofun
    onceObserved.held "a0" _ "second" none 1000 [counted] onceObserved rfl hHeld rfl (by decide)
    hDone (by simp [counted, Step.tag?])
  have hReached : onceObserved =
      (opened {} [("/org/freedesktop/ModemManager1/Modem/0", "356938035643809")]
        ⟨countedBearer, [], []⟩).after (connectedTwice ++ [observing "a0" "first"]) :=
    (after_append _ _ _).symm
  have hSlot := (hApart _ _ _ _ _ hReached "b0" "a0" _ _ (by decide) hOther hHeld).2
    "third" none 1000
  exact ⟨⟨hDone, hEvents⟩, hSlot⟩

/-- Two observers are registered through two handles of one bearer, and both are told. -/
theorem both_traffic_observers_told :
    let entries := run {} (some countedBearer) (connectedTwice ++
      [.path "a0", .path "b0", observing "a0" "first", observing "b0" "second", counted])
    entries.map (fun entry => entry.answer) =
        [.nothing, .modem (some "/org/freedesktop/ModemManager1/Modem/0"),
          .result (.bearers ["/org/freedesktop/ModemManager1/Bearer/0"]),
          .result (.bearers ["/org/freedesktop/ModemManager1/Bearer/0"]),
          .text "/org/freedesktop/ModemManager1/Bearer/0",
          .text "/org/freedesktop/ModemManager1/Bearer/0", .nothing, .nothing, .nothing] ∧
      entries.map (fun entry => entry.events.map Prod.fst) =
        [[], [], [], [], [], [], [], [], ["first", "second"]] := by
  intro entries
  constructor
  · subst entries
    rfl
  · subst entries
    decide +kernel

end Session

end ModemLink
