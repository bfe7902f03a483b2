import Mathlib.Data.List.Basic
import Mathlib.Data.List.Induction
import ModemLink.Observer.Slot

/-!
# One observer at a time

A slot is owned by the handles that share it. Observers are registered through any of them, tasks
are polled in any order, each poll looking at the work or at the shutdown channel first, and what
the work waits for arrives at any time. Handles are cloned and dropped, and values are sent on the
channel until it is closed. Nothing is assumed about the work of a task, nor about what it does when
it is polled.

* `Shared.step`, `Shared.run`: what one of these moves does, and what any sequence of them does.
* `Shared.Single.step`: only the task registered last runs, and only while somebody owns the slot.
* `Shared.Kept.step`: before the channel is closed, that task stops only when its work is done.
* `Shared.run_unsent`: a run without the values that are sent differs in nothing else.
* `Shared.one_observer_at_a_time`: what holds of all runs.
-/

namespace ModemLink.Observer

variable {W A β Q R ν ε : Type}

/-- What tasks do with their work. -/
structure Conduct (W A β : Type) where
  /-- How the work goes on at a poll, given whether the manager exists, and what it tells. -/
  go : Bool → W → W × List β
  isDone : W → Bool
  /-- How the work takes what arrives from outside. -/
  take : A → W → W

/-- What reaches the work of an observer. -/
inductive Arrival (ν R : Type)
  | notice (n : ν)
  | reply (r : R)
  /-- No further notice will come. -/
  | ended

/-- The conduct of observers that react to notices. -/
def Work.conduct : Conduct (Work Q R ν ε) (Arrival ν R) ε where
  go := Work.poll
  isDone := Work.isDone
  take
    | .notice n, w => w.notify n
    | .reply r, w => w.reply r
    | .ended, w => { w with ended := true }

/-! ## Tasks -/

/-- The channel as if nothing had been sent on it; likewise tasks, slots and what is around them. -/
def Shutdown.unsent (c : Shutdown) : Shutdown := { c with sent := 0 }

namespace Task

variable {f : W → W × List β} {isDone : W → Bool} {c : Shutdown} {first : First} {t : Task W}

def unsent (t : Task W) : Task W := { t with seen := 0 }

theorem abort_of_over (h : t.status ≠ .running) : t.abort = t := if_neg h

theorem feed_of_over {g : W → W} (h : t.status ≠ .running) : t.feed g = t := if_neg h

theorem abort_not_running (t : Task W) : t.abort.status ≠ .running := by
  unfold abort
  split
  · exact Status.noConfusion
  · assumption

@[simp] theorem status_feed (g : W → W) (t : Task W) : (t.feed g).status = t.status := by
  unfold feed
  split <;> rfl

theorem heed_eq (c : Shutdown) (h : t.status = .running) :
    t.heed c = { t with
      seen := c.sent, status := if c.isClosed then .finished else .running } := by
  rw [heed, if_pos h, Shutdown.watch_eq]

theorem heed_of_over (h : t.status ≠ .running) : t.heed c = t := if_neg h

theorem progress_of_over (h : t.status ≠ .running) : t.progress f isDone = (t, []) := if_neg h

theorem poll_of_over (h : t.status ≠ .running) : t.poll f isDone c first = (t, []) := by
  cases first <;> simp [poll, heed_of_over, progress_of_over, h]

/-- What one poll of a running task does. Of the channel only its end counts, and whether the work
goes on once more then depends on what comes first. -/
theorem poll_of_running (h : t.status = .running) :
    (t.poll f isDone c first).1.unsent =
        { t.unsent with
          work := if c.isClosed ∧ first = .shutdown then t.work else (f t.work).1
          status := if c.isClosed ∨ isDone (f t.work).1 then .finished else .running } ∧
      (t.poll f isDone c first).2 =
        if c.isClosed ∧ first = .shutdown then [] else (f t.work).2 := by
  cases first with
  | work =>
    simp only [poll, progress, if_pos h]
    by_cases hDone : isDone (f t.work).1 = true
    · simp [hDone, heed_of_over, unsent]
    · simp [hDone, heed_eq, unsent]
  | shutdown =>
    cases hClosed : c.isClosed with
    | true => simp [poll, heed_eq, h, hClosed, progress_of_over, unsent]
    | false => simp [poll, heed_eq, h, hClosed, progress, unsent]

theorem status_poll (h : t.status = .running) : (t.poll f isDone c first).1.status =
    if c.isClosed ∨ isDone (f t.work).1 then .finished else .running :=
  congrArg Task.status (poll_of_running h).1

theorem work_poll (h : t.status = .running) : (t.poll f isDone c first).1.work =
    if c.isClosed ∧ first = .shutdown then t.work else (f t.work).1 :=
  congrArg Task.work (poll_of_running h).1

theorem feed_unsent (g : W → W) (t : Task W) : (t.feed g).unsent = (t.unsent.feed g).unsent := by
  by_cases h : t.status = .running <;> simp [feed, unsent, h]

theorem abort_unsent (t : Task W) : t.abort.unsent = t.unsent.abort.unsent := by
  by_cases h : t.status = .running <;> simp [abort, unsent, h]

theorem poll_unsent (t : Task W) (f : W → W × List β) (isDone : W → Bool) (c : Shutdown)
    (first : First) :
    (t.poll f isDone c first).1.unsent = (t.unsent.poll f isDone c.unsent first).1.unsent ∧
      (t.poll f isDone c first).2 = (t.unsent.poll f isDone c.unsent first).2 := by
  by_cases h : t.status = .running
  · have hUnsent : t.unsent.status = .running := h
    rw [(poll_of_running h).1, (poll_of_running h).2, (poll_of_running hUnsent).1,
      (poll_of_running hUnsent).2]
    exact ⟨rfl, rfl⟩
  · have hUnsent : t.unsent.status ≠ .running := h
    rw [poll_of_over h, poll_of_over hUnsent]
    exact ⟨rfl, rfl⟩

end Task

/-! ## Slots -/

namespace Slot

variable {s : Slot W} {place p : Nat} {t : Task W} {g : Task W → Task W}

def isRunning (s : Slot W) (place : Nat) : Bool := s.tasks[place]?.any (·.status = .running)

theorem isRunning_iff : s.isRunning place = true ↔
    ∃ t, s.tasks[place]? = some t ∧ t.status = .running := by
  simp [isRunning, Option.any_eq_true]

theorem lt_of_isRunning (h : s.isRunning place = true) : place < s.tasks.length := by
  obtain ⟨t, hTask, -⟩ := isRunning_iff.mp h
  exact (List.getElem?_eq_some_iff.mp hTask).1

theorem getElem?_changeAt (g : Task W → Task W) (place p : Nat) (s : Slot W) :
    (s.changeAt g place).tasks[p]? =
      if place = p then s.tasks[p]?.map g else s.tasks[p]? := by
  rw [changeAt, List.getElem?_modify]
  split <;> simp

@[simp] theorem length_changeAt (g : Task W → Task W) (place : Nat) (s : Slot W) :
    (s.changeAt g place).tasks.length = s.tasks.length := List.length_modify ..

@[simp] theorem length_register (s : Slot W) (work : W) :
    (s.register work).tasks.length = s.tasks.length + 1 := by
  simp [register, abandon]

theorem pollAt_eq (f : W → W × List β) (isDone : W → Bool) (c : Shutdown) (first : Task.First)
    (h : s.tasks[place]? = some t) :
    s.pollAt f isDone c first place =
      (s.changeAt (fun t => (t.poll f isDone c first).1) place, (t.poll f isDone c first).2) := by
  rw [pollAt, h, changeAt, List.modify_eq_set_getElem?, h]
  rfl

/-! ### Changes that leave alone what is over -/

/-- A change of running tasks. -/
def Spares (g : Task W → Task W) : Prop := ∀ t, t.status ≠ .running → g t = t

theorem spares_id : Spares (W := W) id := fun _ _ => rfl

theorem spares_abort : Spares (W := W) Task.abort := fun _ => Task.abort_of_over

theorem spares_feed (g : W → W) : Spares (Task.feed g) := fun _ => Task.feed_of_over

theorem spares_poll (f : W → W × List β) (isDone : W → Bool) (c : Shutdown)
    (first : Task.First) : Spares fun t => (t.poll f isDone c first).1 :=
  fun _ h => congrArg Prod.fst (Task.poll_of_over h)

theorem Spares.getElem?_changeAt (hg : Spares g) (h : s.tasks[p]? = some t)
    (hOver : t.status ≠ .running) : (s.changeAt g place).tasks[p]? = some t := by
  rw [Slot.getElem?_changeAt, h]
  split <;> simp [hg t hOver]

theorem Spares.isRunning_of_changeAt (hg : Spares g)
    (h : (s.changeAt g place).isRunning p = true) : s.isRunning p = true := by
  obtain ⟨t', hTask', hRuns⟩ := isRunning_iff.mp h
  have hLt : p < s.tasks.length := by simpa using lt_of_isRunning h
  have hTask : s.tasks[p]? = some s.tasks[p] := List.getElem?_eq_getElem hLt
  by_contra hStill
  have hOver : s.tasks[p].status ≠ .running := fun hStatus =>
    hStill (isRunning_iff.mpr ⟨_, hTask, hStatus⟩)
  cases hTask'.symm.trans (hg.getElem?_changeAt hTask hOver)
  exact hOver hRuns

theorem ne_last_of_abandon (h : s.abandon.isRunning p = true) : p ≠ s.last := by
  rintro rfl
  obtain ⟨t', hTask, hRuns⟩ := isRunning_iff.mp h
  rw [abandon, Slot.getElem?_changeAt, if_pos rfl] at hTask
  obtain ⟨t, -, rfl⟩ := Option.map_eq_some_iff.mp hTask
  exact t.abort_not_running hRuns

theorem getElem?_register_of_lt (work : W) (h : p < s.tasks.length) :
    (s.register work).tasks[p]? = s.abandon.tasks[p]? :=
  List.getElem?_append_left (by simpa [abandon] using h)

theorem getElem?_register_length (s : Slot W) (work : W) :
    (s.register work).tasks[s.tasks.length]? = some (.start work) := by
  simp [register, abandon]

/-- After a registration at most the new task runs and those before the one that is replaced. -/
theorem isRunning_register {work : W} (h : (s.register work).isRunning p = true) :
    p = s.tasks.length ∨ s.abandon.isRunning p = true := by
  have hLt : p < s.tasks.length + 1 := by simpa using lt_of_isRunning h
  by_cases hNew : p = s.tasks.length
  · exact .inl hNew
  · refine .inr ?_
    rwa [isRunning, getElem?_register_of_lt work (by omega)] at h

/-! ### Values on the channel -/

def unsent (s : Slot W) : Slot W := ⟨s.tasks.map Task.unsent⟩

theorem getElem?_unsent (s : Slot W) (p : Nat) :
    s.unsent.tasks[p]? = s.tasks[p]?.map Task.unsent := List.getElem?_map

@[simp] theorem unsent_unsent (s : Slot W) : s.unsent.unsent = s.unsent := by
  simp [unsent, Task.unsent]

theorem isRunning_unsent (s : Slot W) (p : Nat) : s.unsent.isRunning p = s.isRunning p := by
  simp only [isRunning, getElem?_unsent, Option.any_map]
  rfl

theorem unsent_changeAt {g g' : Task W → Task W} (hg : ∀ t, (g t).unsent = (g' t.unsent).unsent)
    (s : Slot W) (place : Nat) :
    (s.changeAt g place).unsent = (s.unsent.changeAt g' place).unsent := by
  refine congrArg Slot.mk (List.ext_getElem? fun p => ?_)
  simp only [List.getElem?_map, getElem?_changeAt, getElem?_unsent]
  split
  · cases s.tasks[p]? with
    | none => rfl
    | some t => exact congrArg some (hg t)
  · cases s.tasks[p]? <;> rfl

theorem unsent_poll (f : W → W × List β) (isDone : W → Bool) (c : Shutdown)
    (first : Task.First) (s : Slot W) (place : Nat) :
    (s.changeAt (fun t => (t.poll f isDone c first).1) place).unsent =
      (s.unsent.changeAt (fun t => (t.poll f isDone c.unsent first).1) place).unsent :=
  unsent_changeAt (fun t => (t.poll_unsent f isDone c first).1) s place

theorem unsent_abandon (s : Slot W) : s.abandon.unsent = s.unsent.abandon.unsent := by
  have hLast : s.unsent.last = s.last := by simp [last, unsent]
  rw [abandon, abandon, hLast, unsent_changeAt Task.abort_unsent]

theorem unsent_register (s : Slot W) (work : W) :
    (s.register work).unsent = (s.unsent.register work).unsent := by
  have hAbandon := congrArg Slot.tasks s.unsent_abandon
  simp only [unsent] at hAbandon ⊢
  simp only [register, List.map_append, hAbandon]

end Slot

/-! ## Slots that are shared -/

/-- One poll of a running task, with what it told. -/
structure Turn (β : Type) where
  place : Nat
  told : List β
deriving DecidableEq, Repr

/-- A slot with what goes on around it. -/
structure Shared (W β : Type) where
  slot : Slot W
  /-- How many handles own the slot. -/
  owners : Nat
  channel : Shutdown
  /-- The polls of running tasks so far. -/
  turns : List (Turn β)

/-- What may happen around a slot. -/
inductive Move (W A : Type)
  /-- An observer is registered through one of the owners. -/
  | registered (work : W)
  /-- An owner is cloned. -/
  | cloned
  | dropped
  /-- Something reaches the work of the task at a place. -/
  | arrived (place : Nat) (a : A)
  | polled (place : Nat) (first : Task.First) (linked : Bool)
  /-- A value is sent on the channel. -/
  | sent
  | closed

def Move.isSent : Move W A → Bool
  | .sent => true
  | _ => false

namespace Shared

variable {k : Conduct W A β} {s s' : Shared W β} {p : Nat}

/-- A new slot with one owner. -/
def fresh (channel : Shutdown) : Shared W β := ⟨.empty, 1, channel, []⟩

/-- What a move does. Without an owner there is none to register through, to clone or to drop, and
a task that does not run is not polled. The last owner to be dropped abandons the slot. -/
def step (k : Conduct W A β) (s : Shared W β) : Move W A → Shared W β
  | .registered work => if s.owners = 0 then s else { s with slot := s.slot.register work }
  | .cloned => if s.owners = 0 then s else { s with owners := s.owners + 1 }
  | .dropped =>
    if s.owners = 1 then { s with slot := s.slot.abandon, owners := 0 }
    else { s with owners := s.owners - 1 }
  | .arrived place a => { s with slot := s.slot.changeAt (Task.feed (k.take a)) place }
  | .polled place first linked =>
    if s.slot.isRunning place then
      let (slot, told) := s.slot.pollAt (k.go linked) k.isDone s.channel first place
      { s with slot, turns := s.turns ++ [⟨place, told⟩] }
    else s
  | .sent => { s with channel := s.channel.send }
  | .closed => { s with channel := s.channel.close }

def run (k : Conduct W A β) (s : Shared W β) (moves : List (Move W A)) : Shared W β :=
  moves.foldl (step k) s

theorem run_concat (s : Shared W β) (moves : List (Move W A)) (m : Move W A) :
    run k s (moves ++ [m]) = step k (run k s moves) m := by
  simp [run]

/-- What every move keeps, a run keeps. -/
theorem run_keeps {P : Shared W β → Prop} (hStep : ∀ s m, P s → P (step k s m)) (h : P s)
    (moves : List (Move W A)) : P (run k s moves) := by
  induction moves using List.reverseRecOn with
  | nil => exact h
  | append_singleton moves m ih => exact run_concat s moves m ▸ hStep _ m ih

/-! ### What a move does to the tasks -/

theorem step_polled {t : Task W} (hTask : s.slot.tasks[p]? = some t) (h : t.status = .running)
    (first : Task.First) (linked : Bool) :
    step k s (.polled p first linked) =
      { s with
        slot := s.slot.changeAt (fun t => (t.poll (k.go linked) k.isDone s.channel first).1) p
        turns := s.turns ++ [⟨p, (t.poll (k.go linked) k.isDone s.channel first).2⟩] } := by
  simp only [step, if_pos (Slot.isRunning_iff.mpr ⟨t, hTask, h⟩), Slot.pollAt_eq _ _ _ _ hTask]

theorem step_polled_of_over (h : ¬ s.slot.isRunning p = true) (first : Task.First)
    (linked : Bool) : step k s (.polled p first linked) = s := if_neg h

/-- A move registers a task, abandons the slot, or changes a task that runs. -/
theorem slot_step (k : Conduct W A β) (s : Shared W β) (m : Move W A) :
    (∃ work, m = .registered work ∧ 0 < s.owners ∧ (step k s m).owners = s.owners ∧
        (step k s m).slot = s.slot.register work) ∨
      ((step k s m).owners = 0 ∧ (step k s m).slot = s.slot.abandon) ∨
      ∃ g place, Slot.Spares g ∧ (0 < s.owners → 0 < (step k s m).owners) ∧
        (step k s m).slot = s.slot.changeAt g place := by
  have hSame : s.slot = s.slot.changeAt id 0 := by simp [Slot.changeAt]
  cases m with
  | registered work =>
    by_cases hNone : s.owners = 0
    · simp only [step, if_pos hNone]
      exact .inr (.inr ⟨id, 0, Slot.spares_id, id, hSame⟩)
    · have hStep : step k s (.registered work) = { s with slot := s.slot.register work } :=
        if_neg hNone
      exact .inl ⟨work, rfl, Nat.pos_of_ne_zero hNone, by rw [hStep], by rw [hStep]⟩
  | cloned =>
    by_cases hNone : s.owners = 0
    · simp only [step, if_pos hNone]
      exact .inr (.inr ⟨id, 0, Slot.spares_id, id, hSame⟩)
    · simp only [step, if_neg hNone]
      exact .inr (.inr ⟨id, 0, Slot.spares_id, fun _ => Nat.succ_pos _, hSame⟩)
  | dropped =>
    by_cases hOne : s.owners = 1
    · exact .inr (.inl (by simp only [step, if_pos hOne, and_self]))
    · simp only [step, if_neg hOne]
      exact .inr (.inr ⟨id, 0, Slot.spares_id, fun _ => by omega, hSame⟩)
  | arrived place a => exact .inr (.inr ⟨_, place, Slot.spares_feed (k.take a), id, rfl⟩)
  | polled place first linked =>
    by_cases hRuns : s.slot.isRunning place = true
    · obtain ⟨t, hTask, hStatus⟩ := Slot.isRunning_iff.mp hRuns
      rw [step_polled hTask hStatus]
      exact .inr (.inr ⟨_, place, Slot.spares_poll _ _ _ _, id, rfl⟩)
    · rw [step_polled_of_over hRuns]
      exact .inr (.inr ⟨id, 0, Slot.spares_id, id, hSame⟩)
  | sent => exact .inr (.inr ⟨id, 0, Slot.spares_id, id, hSame⟩)
  | closed => exact .inr (.inr ⟨id, 0, Slot.spares_id, id, hSame⟩)

theorem length_step (k : Conduct W A β) (s : Shared W β) (m : Move W A) :
    s.slot.tasks.length ≤ (step k s m).slot.tasks.length := by
  rcases slot_step k s m with ⟨work, -, -, -, hSlot⟩ | ⟨-, hSlot⟩ | ⟨g, place, -, -, hSlot⟩ <;>
    simp [hSlot, Slot.abandon]

/-- A task that is over stays as it is. -/
theorem over_step {t : Task W} (hTask : s.slot.tasks[p]? = some t) (h : t.status ≠ .running)
    (m : Move W A) : (step k s m).slot.tasks[p]? = some t := by
  have hLt : p < s.slot.tasks.length := (List.getElem?_eq_some_iff.mp hTask).1
  have hAbandoned : s.slot.abandon.tasks[p]? = some t :=
    Slot.spares_abort.getElem?_changeAt hTask h
  rcases slot_step k s m with ⟨work, -, -, -, hSlot⟩ | ⟨-, hSlot⟩ |
    ⟨g, place, hSpares, -, hSlot⟩
  · rw [hSlot, Slot.getElem?_register_of_lt work hLt, hAbandoned]
  · rw [hSlot, hAbandoned]
  · rw [hSlot, hSpares.getElem?_changeAt hTask h]

theorem turns_step (k : Conduct W A β) (s : Shared W β) (m : Move W A) :
    (step k s m).turns = s.turns ∨ ∃ place told, s.slot.isRunning place = true ∧
      ∃ first linked, m = .polled place first linked ∧
        (step k s m).turns = s.turns ++ [⟨place, told⟩] := by
  cases m with
  | polled place first linked =>
    by_cases hRuns : s.slot.isRunning place = true
    · obtain ⟨t, hTask, hStatus⟩ := Slot.isRunning_iff.mp hRuns
      exact .inr ⟨place, _, hRuns, first, linked, rfl, by rw [step_polled hTask hStatus]⟩
    · exact .inl (by rw [step_polled_of_over hRuns])
  | arrived place a => exact .inl rfl
  | sent => exact .inl rfl
  | closed => exact .inl rfl
  | _ => refine .inl ?_; simp only [step]; split <;> rfl

theorem isClosed_step (m : Move W A) (h : s.channel.isClosed = true) :
    (step k s m).channel.isClosed = true := by
  cases m with
  | arrived place a => exact h
  | sent => simpa [step] using h
  | closed => rfl
  | _ => simp only [step]; split <;> exact h

theorem isClosed_run (moves : List (Move W A)) (h : s.channel.isClosed = true) :
    (run k s moves).channel.isClosed = true :=
  run_keeps (P := fun s => s.channel.isClosed = true) (fun _ m h => isClosed_step m h) h moves

/-! ### Only the last task runs -/

/-- Only the task that was registered last runs, and only while somebody owns the slot. -/
structure Single (s : Shared W β) : Prop where
  last : ∀ p, s.slot.isRunning p = true → p + 1 = s.slot.tasks.length
  owned : ∀ p, s.slot.isRunning p = true → 0 < s.owners

theorem single_fresh (channel : Shutdown) : Single (fresh channel : Shared W β) :=
  ⟨fun _ h => by simp [Slot.isRunning, fresh, Slot.empty] at h, fun _ _ => Nat.one_pos⟩

theorem Single.not_isRunning_abandon (h : Single s) (p : Nat) :
    s.slot.abandon.isRunning p = false := by
  by_contra hRuns
  have hRuns : s.slot.abandon.isRunning p = true := by simpa using hRuns
  have hLast := h.last p (Slot.spares_abort.isRunning_of_changeAt hRuns)
  exact Slot.ne_last_of_abandon hRuns (by simp only [Slot.last]; omega)

theorem Single.step (h : Single s) (m : Move W A) : Single (step k s m) := by
  rcases slot_step k s m with ⟨work, -, hPos, hOwners, hSlot⟩ | ⟨-, hSlot⟩ |
    ⟨g, place, hSpares, hOwners, hSlot⟩
  · refine ⟨fun p hp => ?_, fun _ _ => hOwners ▸ hPos⟩
    rcases Slot.isRunning_register (hSlot ▸ hp) with rfl | hOther
    · simp [hSlot]
    · simp [h.not_isRunning_abandon] at hOther
  · have hNone : ∀ p, (Shared.step k s m).slot.isRunning p = false :=
      fun p => hSlot ▸ h.not_isRunning_abandon p
    exact ⟨fun p hp => by simp [hNone] at hp, fun p hp => by simp [hNone] at hp⟩
  · have hRuns : ∀ p, (Shared.step k s m).slot.isRunning p = true →
        s.slot.isRunning p = true := fun p hp => hSpares.isRunning_of_changeAt (hSlot ▸ hp)
    refine ⟨fun p hp => ?_, fun p hp => hOwners (h.owned p (hRuns p hp))⟩
    simpa [hSlot] using h.last p (hRuns p hp)

theorem Single.run (h : Single s) (moves : List (Move W A)) : Single (run k s moves) :=
  run_keeps (fun _ m h => h.step m) h moves

theorem owners_step (m : Move W A) (h : s.owners = 0) : (step k s m).owners = 0 := by
  cases m with
  | polled place first linked => simp only [step]; split <;> exact h
  | _ => simp [step, h]

theorem owners_run (moves : List (Move W A)) (h : s.owners = 0) : (run k s moves).owners = 0 :=
  run_keeps (P := fun s => s.owners = 0) (fun _ m h => owners_step m h) h moves

/-! ### The last task stops only when its work is done -/

/-- While the channel is open and somebody owns the slot, the task that was registered last runs or
its work is done. -/
def Kept (k : Conduct W A β) (s : Shared W β) : Prop :=
  s.channel.isClosed = false → 0 < s.owners → ∀ t ∈ s.slot.tasks[s.slot.last]?,
    t.status = .running ∨ t.status = .finished ∧ k.isDone t.work = true

theorem kept_fresh (k : Conduct W A β) (channel : Shutdown) : Kept k (fresh channel) :=
  fun _ _ t ht => by simp [fresh, Slot.empty] at ht

/-- What a change must do with a running task so that the last one is kept. -/
theorem Kept.changeAt {g : Task W → Task W} {place : Nat} (h : Kept k s)
    (hChannel : s'.channel = s.channel) (hOwners : s'.owners = s.owners)
    (hSlot : s'.slot = s.slot.changeAt g place) (hSpares : Slot.Spares g)
    (hg : s.channel.isClosed = false → ∀ t, t.status = .running →
      (g t).status = .running ∨ (g t).status = .finished ∧ k.isDone (g t).work = true) :
    Kept k s' := by
  intro hOpen hOwned t ht
  rw [hChannel] at hOpen
  have hLast : s'.slot.last = s.slot.last := by simp [Slot.last, hSlot]
  rw [hLast, hSlot, Slot.getElem?_changeAt] at ht
  have hOld := h hOpen (hOwners ▸ hOwned)
  split at ht
  · obtain ⟨old, hTask, rfl⟩ := Option.map_eq_some_iff.mp ht
    rcases hOld old hTask with hRuns | hOver
    · exact hg hOpen old hRuns
    · have hSame : g old = old := hSpares old (by simp [hOver.1])
      exact .inr (hSame.symm ▸ hOver)
  · exact hOld t ht

theorem Kept.step (h : Kept k s) (m : Move W A) : Kept k (step k s m) := by
  -- `slot_step` does not say enough here: what counts is by which move a task stops.
  cases m with
  | registered work =>
    simp only [Shared.step]
    split
    · exact h
    · intro _ _ t ht
      have hLast : (s.slot.register work).last = s.slot.tasks.length := by simp [Slot.last]
      rw [hLast, Slot.getElem?_register_length] at ht
      cases ht
      exact .inl rfl
  | cloned =>
    simp only [Shared.step]
    split
    · exact h
    · exact fun hOpen _ => h hOpen (by omega)
  | dropped =>
    simp only [Shared.step]
    split
    · exact fun _ hOwned => absurd hOwned (Nat.lt_irrefl 0)
    · exact fun hOpen hOwned => h hOpen (by simp only at hOwned; omega)
  | arrived place a =>
    refine h.changeAt rfl rfl rfl (Slot.spares_feed (k.take a)) fun _ t hRuns => .inl ?_
    rw [Task.status_feed, hRuns]
  | polled place first linked =>
    by_cases hRuns : s.slot.isRunning place = true
    · obtain ⟨t, hTask, hStatus⟩ := Slot.isRunning_iff.mp hRuns
      rw [step_polled hTask hStatus]
      refine h.changeAt rfl rfl rfl (Slot.spares_poll _ _ _ _) fun hOpen old hOld => ?_
      rw [Task.status_poll hOld, Task.work_poll hOld, hOpen]
      by_cases hDone : k.isDone (k.go linked old.work).1 = true <;> simp [hDone]
    · rwa [step_polled_of_over hRuns]
  | sent => exact fun hOpen => h (by simpa [Shared.step] using hOpen)
  | closed => exact fun hOpen => Bool.noConfusion hOpen

theorem Kept.run (h : Kept k s) (moves : List (Move W A)) : Kept k (run k s moves) :=
  run_keeps (fun _ m h => h.step m) h moves

/-! ### Turns -/

/-- Every turn is a poll of a task that runs then. -/
theorem exists_turns (k : Conduct W A β) (s : Shared W β) (moves : List (Move W A)) :
    ∃ turns, (run k s moves).turns = s.turns ++ turns ∧
      ∀ turn ∈ turns, ∃ before, before <+: moves ∧
        (run k s before).slot.isRunning turn.place = true := by
  induction moves using List.reverseRecOn with
  | nil => exact ⟨[], by simp [run], by simp⟩
  | append_singleton moves m ih =>
    obtain ⟨turns, hTurns, hRan⟩ := ih
    have hPrefix := List.prefix_append moves [m]
    rw [run_concat]
    have hEarlier : ∀ turn ∈ turns, ∃ before, before <+: moves ++ [m] ∧
        (run k s before).slot.isRunning turn.place = true := by
      intro turn hMem
      obtain ⟨before, hBefore, hRuns⟩ := hRan turn hMem
      exact ⟨before, hBefore.trans hPrefix, hRuns⟩
    rcases turns_step k (run k s moves) m with hSame | ⟨place, told, hRuns, -, -, -, hNew⟩
    · exact ⟨turns, hSame.trans hTurns, hEarlier⟩
    · refine ⟨turns ++ [⟨place, told⟩], by rw [hNew, hTurns, List.append_assoc], ?_⟩
      intro turn hMem
      rcases List.mem_append.mp hMem with hOld | hLast
      · exact hEarlier turn hOld
      · obtain rfl := List.mem_singleton.mp hLast
        exact ⟨moves, hPrefix, hRuns⟩

theorem length_run (k : Conduct W A β) (s : Shared W β) (moves : List (Move W A)) :
    s.slot.tasks.length ≤ (run k s moves).slot.tasks.length :=
  run_keeps (P := fun later => s.slot.tasks.length ≤ later.slot.tasks.length)
    (fun later m h => Nat.le_trans h (length_step k later m)) (Nat.le_refl _) moves

/-- Of the tasks there are only the last still gets turns. -/
theorem Single.turns_run (h : Single s) {n : Nat} (hLast : n < s.slot.tasks.length)
    (moves : List (Move W A)) :
    ∃ turns, (Shared.run k s moves).turns = s.turns ++ turns ∧
      ∀ turn ∈ turns, n ≤ turn.place := by
  obtain ⟨turns, hTurns, hRan⟩ := exists_turns k s moves
  refine ⟨turns, hTurns, fun turn hMem => ?_⟩
  obtain ⟨before, -, hRuns⟩ := hRan turn hMem
  have hPlace := (h.run before).last turn.place hRuns
  have hLength := length_run k s before
  omega

theorem Single.turns_run_of_unowned (h : Single s) (hNone : s.owners = 0)
    (moves : List (Move W A)) : (Shared.run k s moves).turns = s.turns := by
  obtain ⟨turns, hTurns, hRan⟩ := exists_turns k s moves
  cases turns with
  | nil => simpa using hTurns
  | cons turn rest =>
    obtain ⟨before, -, hRuns⟩ := hRan turn List.mem_cons_self
    have hOwned := (h.run before).owned turn.place hRuns
    exact absurd hOwned (by simp [owners_run before hNone])

/-! ### Once the channel is closed -/

theorem finished_of_polled (hClosed : s.channel.isClosed = true) (hRuns : s.slot.isRunning p = true)
    (first : Task.First) (linked : Bool) :
    ∃ t ∈ (step k s (.polled p first linked)).slot.tasks[p]?, t.status = .finished := by
  obtain ⟨t, hTask, hStatus⟩ := Slot.isRunning_iff.mp hRuns
  rw [step_polled hTask hStatus]
  simp only [Slot.getElem?_changeAt, if_pos, hTask, Option.map_some]
  exact ⟨_, rfl, by simp [Task.status_poll hStatus, hClosed]⟩

theorem not_isRunning_of_polled (hClosed : s.channel.isClosed = true) (p : Nat)
    (first : Task.First) (linked : Bool) :
    (step k s (.polled p first linked)).slot.isRunning p = false := by
  by_cases hRuns : s.slot.isRunning p = true
  · obtain ⟨t, hTask, hFinished⟩ := finished_of_polled (k := k) hClosed hRuns first linked
    simp [Slot.isRunning, Option.mem_def.mp hTask, hFinished]
  · rw [step_polled_of_over hRuns]
    exact Bool.eq_false_iff.mpr hRuns

/-- Once the channel is closed every task gets at most one more turn, which finishes it. -/
theorem turns_run_of_closed (hClosed : s.channel.isClosed = true) (moves : List (Move W A)) :
    ∃ turns, (run k s moves).turns = s.turns ++ turns ∧ (turns.map Turn.place).Nodup ∧
      ∀ turn ∈ turns, ∃ t ∈ (run k s moves).slot.tasks[turn.place]?, t.status = .finished := by
  induction moves using List.reverseRecOn with
  | nil => exact ⟨[], by simp [run], by simp, by simp⟩
  | append_singleton moves m ih =>
    obtain ⟨turns, hTurns, hNodup, hFinished⟩ := ih
    rw [run_concat]
    have hEarlier : ∀ turn ∈ turns, ∃ t ∈ (step k (run k s moves) m).slot.tasks[turn.place]?,
        t.status = .finished := by
      intro turn hMem
      obtain ⟨t, hTask, hStatus⟩ := hFinished turn hMem
      exact ⟨t, over_step hTask (by simp [hStatus]) m, hStatus⟩
    rcases turns_step k (run k s moves) m with
      hSame | ⟨place, told, hRuns, first, linked, rfl, hNew⟩
    · exact ⟨turns, hSame.trans hTurns, hNodup, hEarlier⟩
    -- A task that had a turn is finished, so it cannot be the one that runs now.
    · have hFresh : place ∉ turns.map Turn.place := by
        intro hMem
        obtain ⟨turn, hTurn, rfl⟩ := List.mem_map.mp hMem
        obtain ⟨t, hTask, hStatus⟩ := hFinished turn hTurn
        simp [Slot.isRunning, Option.mem_def.mp hTask, hStatus] at hRuns
      refine ⟨turns ++ [⟨place, told⟩], by rw [hNew, hTurns, List.append_assoc], ?_, ?_⟩
      · simpa [List.nodup_append] using ⟨hNodup, fun turn hMem hPlace =>
          hFresh (hPlace ▸ List.mem_map_of_mem hMem)⟩
      · intro turn hMem
        rcases List.mem_append.mp hMem with hOld | hLast
        · exact hEarlier turn hOld
        · obtain rfl := List.mem_singleton.mp hLast
          exact finished_of_polled (isClosed_run moves hClosed) hRuns first linked

/-! ### Values on the channel -/

def unsent (s : Shared W β) : Shared W β :=
  { s with slot := s.slot.unsent, channel := s.channel.unsent }

@[simp] theorem unsent_unsent (s : Shared W β) : s.unsent.unsent = s.unsent := by
  simp [unsent, Shutdown.unsent]

theorem unsent_sent (k : Conduct W A β) (s : Shared W β) : (step k s .sent).unsent = s.unsent := by
  simp [step, unsent, Shutdown.unsent]

/-- Apart from the values themselves a move depends on them in nothing. -/
theorem unsent_step (k : Conduct W A β) (s : Shared W β) (m : Move W A) :
    (step k s m).unsent = (step k s.unsent m).unsent := by
  cases m with
  | registered work =>
    by_cases hNone : s.owners = 0 <;>
      simp [step, unsent, hNone, s.slot.unsent_register work, Shutdown.unsent]
  | cloned => by_cases hNone : s.owners = 0 <;> simp [step, unsent, hNone, Shutdown.unsent]
  | dropped =>
    by_cases hOne : s.owners = 1 <;>
      simp [step, unsent, hOne, s.slot.unsent_abandon, Shutdown.unsent]
  | arrived place a =>
    have hSlot := s.slot.unsent_changeAt (Task.feed_unsent (k.take a)) place
    simp only [step, unsent, hSlot]
    rfl
  | polled place first linked =>
    by_cases hRuns : s.slot.isRunning place = true
    · obtain ⟨t, hTask, hStatus⟩ := Slot.isRunning_iff.mp hRuns
      have hTask' : s.unsent.slot.tasks[place]? = some t.unsent := by
        simp [unsent, Slot.getElem?_unsent, hTask]
      have hTold := (t.poll_unsent (k.go linked) k.isDone s.channel first).2
      have hSlot := Slot.unsent_poll (k.go linked) k.isDone s.channel first s.slot place
      rw [step_polled hTask hStatus, step_polled hTask' hStatus, hTold]
      simp only [unsent, hSlot]
      rfl
    · have hOver : ¬ s.unsent.slot.isRunning place = true := by
        rwa [unsent, Slot.isRunning_unsent]
      rw [step_polled_of_over hRuns, step_polled_of_over hOver, unsent_unsent]
  | sent => rw [unsent_sent, unsent_sent, unsent_unsent]
  | closed => simp [step, unsent, Shutdown.close, Shutdown.unsent]

/-- Leaving out the values that are sent changes nothing else. -/
theorem run_unsent (k : Conduct W A β) (s : Shared W β) (moves : List (Move W A)) :
    (run k s moves).unsent = (run k s (moves.filter fun m => !m.isSent)).unsent := by
  induction moves using List.reverseRecOn with
  | nil => rfl
  | append_singleton moves m ih =>
    rw [run_concat, List.filter_append]
    by_cases hSent : m = .sent
    · rw [hSent, unsent_sent, ih]
      simp [Move.isSent]
    · have hOther : [m].filter (fun m => !m.isSent) = [m] := by
        cases m <;> first | rfl | exact absurd rfl hSent
      rw [hOther, run_concat, unsent_step, ih, ← unsent_step]

/-- **A slot has one observer at a time.** Let anything have happened around a slot since it was
made.

Only the task that was registered last runs, and only while somebody owns the slot; while the
channel is open it does run unless its work is done. A registration starts a task, and from then on
no earlier task is polled, so that none tells anything. Without owners nothing is ever polled again.
Once the channel is closed every task is polled at most once more, whatever has reached it, and is
finished then. Without the values that were sent on the channel everything would have been the
same. -/
theorem one_observer_at_a_time (k : Conduct W A β) (channel : Shutdown)
    (moves : List (Move W A)) :
    let s := run k (fresh channel) moves
    (∀ p, s.slot.isRunning p = true → p + 1 = s.slot.tasks.length ∧ 0 < s.owners) ∧
    (s.channel.isClosed = false → 0 < s.owners → ∀ t ∈ s.slot.tasks[s.slot.last]?,
      t.status = .running ∨ t.status = .finished ∧ k.isDone t.work = true) ∧
    (∀ work, 0 < s.owners →
      (step k s (.registered work)).slot.tasks[s.slot.tasks.length]? = some (.start work) ∧
      ∀ later, ∃ turns, (run k s (.registered work :: later)).turns = s.turns ++ turns ∧
        ∀ turn ∈ turns, s.slot.tasks.length ≤ turn.place) ∧
    (s.owners = 0 → ∀ later,
      (run k s later).owners = 0 ∧ (run k s later).turns = s.turns) ∧
    (s.channel.isClosed = true →
      (∀ p first linked, (step k s (.polled p first linked)).slot.isRunning p = false) ∧
      ∀ later, ∃ turns, (run k s later).turns = s.turns ++ turns ∧
        (turns.map Turn.place).Nodup ∧
        ∀ turn ∈ turns, ∃ t ∈ (run k s later).slot.tasks[turn.place]?, t.status = .finished) ∧
    s.unsent = (run k (fresh channel) (moves.filter fun m => !m.isSent)).unsent := by
  intro s
  have hSingle : Single s := (single_fresh channel).run moves
  refine ⟨fun p h => ⟨hSingle.last p h, hSingle.owned p h⟩, (kept_fresh k channel).run moves,
    fun work hOwned => ?_, fun hNone later => ⟨owners_run later hNone, ?_⟩,
    fun hClosed => ⟨not_isRunning_of_polled hClosed, turns_run_of_closed hClosed⟩,
    run_unsent k _ moves⟩
  · have hStep : step k s (.registered work) = { s with slot := s.slot.register work } :=
      if_neg (Nat.ne_of_gt hOwned)
    refine ⟨by rw [hStep, Slot.getElem?_register_length], fun later => ?_⟩
    have hLast : s.slot.tasks.length < (step k s (.registered work)).slot.tasks.length := by
      simp [hStep]
    obtain ⟨turns, hTurns, hPlaces⟩ := (hSingle.step (.registered work)).turns_run hLast later
    exact ⟨turns, hTurns.trans (by rw [hStep]), hPlaces⟩
  · exact hSingle.turns_run_of_unowned hNone later

/-- A second observer takes over. Instead the channel could be closed, or all owners dropped. -/
theorem second_observer_takes_over :
    let echo : Work Unit Unit Nat Nat := .ofReact fun n => [.done n]
    let first : List (Move (Work Unit Unit Nat Nat) (Arrival Nat Unit)) :=
      [.registered echo, .sent, .cloned, .arrived 0 (.notice 7)]
    let later : List (Move (Work Unit Unit Nat Nat) (Arrival Nat Unit)) :=
      [.dropped, .polled 0 .work true, .arrived 1 (.notice 8), .sent, .polled 1 .shutdown true]
    let s := run Work.conduct (fresh .silent) first
    let closed := run Work.conduct (fresh .silent) (first ++ [.closed])
    let unowned := run Work.conduct (fresh .silent) (first ++ [.dropped, .dropped])
    (s.slot.isRunning 0 = true ∧ 0 + 1 = s.slot.tasks.length ∧ 0 < s.owners) ∧
      (s.channel.isClosed = false ∧ ∀ t ∈ s.slot.tasks[s.slot.last]?,
        t.status = .running ∨ t.status = .finished ∧ t.work.isDone = true) ∧
      ((run Work.conduct s (.registered echo :: later)).turns = [⟨1, [8]⟩] ∧
        ∃ turns, (run Work.conduct s (.registered echo :: later)).turns = s.turns ++ turns ∧
          ∀ turn ∈ turns, s.slot.tasks.length ≤ turn.place) ∧
      (unowned.owners = 0 ∧ (run Work.conduct unowned later).turns = unowned.turns) ∧
      (closed.channel.isClosed = true ∧
        (run Work.conduct closed [.polled 0 .work false, .polled 0 .work false]).turns =
          [⟨0, [7]⟩] ∧
        (step Work.conduct closed (.polled 0 .work false)).slot.isRunning 0 = false) := by
  intro echo first later s closed unowned
  have hRuns : s.slot.isRunning 0 = true := by
    subst s first
    decide
  have hOpen : s.channel.isClosed = false := by
    subst s first
    rfl
  have hUnowned : unowned.owners = 0 := by
    subst unowned first
    decide
  have hClosed : closed.channel.isClosed = true := by
    subst closed first
    rfl
  obtain ⟨hSingle, hKept, hRegistered, -⟩ := one_observer_at_a_time Work.conduct .silent first
  obtain ⟨-, -, -, hSilent, -⟩ :=
    one_observer_at_a_time Work.conduct .silent (first ++ [.dropped, .dropped])
  obtain ⟨-, -, -, -, hEnded, -⟩ :=
    one_observer_at_a_time Work.conduct .silent (first ++ [.closed])
  have hOwned : 0 < s.owners := (hSingle 0 hRuns).2
  refine ⟨⟨hRuns, hSingle 0 hRuns⟩, ⟨hOpen, hKept hOpen hOwned⟩,
    ⟨?_, (hRegistered echo hOwned).2 later⟩, ⟨hUnowned, (hSilent hUnowned later).2⟩,
    ⟨hClosed, ?_, (hEnded hClosed).1 0 .work false⟩⟩
  · subst s first later echo
    cbv
  · subst closed first echo
    cbv

end Shared

end ModemLink.Observer
