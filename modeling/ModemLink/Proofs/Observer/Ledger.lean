import ModemLink.Proofs.Observer.Exchanges
import ModemLink.Proofs.Observer.Single

/-!
# Nothing lost, nothing repeated

An observer handles its notices in the order in which they come. Its readings are done one after the
other, each with the replies to its own questions, and whoever observes is told what those give that
succeed. A ledger of the work says so of all that has happened to it; it is kept as long as the
observer runs, whatever goes on around the slot.

* `Work.Passed`: readings that are gone through with some replies, and what they deliver.
* `Work.passed_iff`: the questions that belong to these replies.
* `Work.Ledger`: what has arrived and what was told of it.
* `Work.Ledger.take`, `Work.Ledger.poll`: how the ledger goes on.
* `Shared.work_step`: what a move does to the work of a task that still runs.
* `Shared.ledger_run`: the ledger of a task since its registration.
-/

namespace ModemLink.Observer

variable {W A β Q R ν ε : Type}

namespace Work

/-! ## Readings -/

/-- Readings, the replies with which they are gone through, what they deliver, and what is left of
them. -/
inductive Passed : List (Program Q R ε) → List R → List ε → List (Program Q R ε) → Prop
  | refl (readings : List (Program Q R ε)) : Passed readings [] [] readings
  | looked {next : Bool → Program Q R ε} (linked : Bool) {rest replies told left}
      (h : Passed (next linked :: rest) replies told left) :
      Passed (.whetherLinked next :: rest) replies told left
  | replied {q : Q} {next : R → Program Q R ε} (r : R) {rest replies told left}
      (h : Passed (next r :: rest) replies told left) :
      Passed (.ask q next :: rest) (r :: replies) told left
  | delivered (e : ε) {rest replies told left} (h : Passed rest replies told left) :
      Passed (.done e :: rest) replies (e :: told) left
  /-- A reading that fails is passed over. -/
  | failed (e : Error) {rest replies told left} (h : Passed rest replies told left) :
      Passed (.fail e :: rest) replies told left

variable {readings left left' : List (Program Q R ε)} {replies replies' : List R}
  {told told' : List ε}

/-- The questions do not matter for how readings are gone through: they are those that the readings
ask. -/
theorem passed_iff : Passed readings replies told left ↔
    ∃ exchanges, exchanges.map Prod.snd = replies ∧ Exchanged readings exchanges told left := by
  constructor
  · intro h
    induction h with
    | refl readings => exact ⟨[], rfl, .refl readings⟩
    | looked linked h ih =>
      obtain ⟨exchanges, hReplies, hExchanged⟩ := ih
      exact ⟨exchanges, hReplies, .looked linked hExchanged⟩
    | replied r h ih =>
      obtain ⟨exchanges, hReplies, hExchanged⟩ := ih
      exact ⟨(_, r) :: exchanges, congrArg (r :: ·) hReplies, .replied r hExchanged⟩
    | delivered e h ih =>
      obtain ⟨exchanges, hReplies, hExchanged⟩ := ih
      exact ⟨exchanges, hReplies, .delivered e hExchanged⟩
    | failed e h ih =>
      obtain ⟨exchanges, hReplies, hExchanged⟩ := ih
      exact ⟨exchanges, hReplies, .failed e hExchanged⟩
  · rintro ⟨exchanges, rfl, h⟩
    induction h with
    | refl readings => exact .refl readings
    | looked linked h ih => exact .looked linked ih
    | replied r h ih => exact .replied r ih
    | delivered e h ih => exact .delivered e ih
    | failed e h ih => exact .failed e ih

theorem Passed.trans (h : Passed readings replies told left)
    (h' : Passed left replies' told' left') :
    Passed readings (replies ++ replies') (told ++ told') left' := by
  obtain ⟨exchanges, rfl, hFirst⟩ := passed_iff.mp h
  obtain ⟨exchanges', rfl, hRest⟩ := passed_iff.mp h'
  exact passed_iff.mpr ⟨exchanges ++ exchanges', List.map_append, hFirst.trans hRest⟩

/-- Readings that stand behind others stay as they are until those are gone through. -/
theorem Passed.append (h : Passed readings replies told left) (behind : List (Program Q R ε)) :
    Passed (readings ++ behind) replies told (left ++ behind) := by
  obtain ⟨exchanges, hReplies, hExchanged⟩ := passed_iff.mp h
  exact passed_iff.mpr ⟨exchanges, hReplies, hExchanged.append behind⟩

/-- A reply goes to the reading that waits for it; nobody waits for any other. -/
theorem passed_reply (w : Work Q R ν ε) (r : R) :
    ∃ replies, replies.Sublist [r] ∧ Passed w.readings replies [] (w.reply r).readings := by
  cases hAsks : w.question? with
  | some q => exact ⟨[r], .refl _, passed_iff.mpr ⟨[(q, r)], rfl, exchanged_reply hAsks r⟩⟩
  | none => exact ⟨[], List.nil_sublist _, (reply_of_no_question hAsks r).symm ▸ .refl _⟩

end Work

/-! ## The ledger -/

namespace Arrival

def notice? : Arrival ν R → Option ν
  | .notice n => some n
  | _ => none

def reply? : Arrival ν R → Option R
  | .reply r => some r
  | _ => none

end Arrival

namespace Work

/-- What has arrived and what was told of it: the notices are those that were handled and those in
the inbox, and the readings of the former were gone through with replies that have arrived, up to
those that are left. -/
structure Ledger (react : ν → List (Program Q R ε)) (arrived : List (Arrival ν R)) (told : List ε)
    (w : Work Q R ν ε) : Prop where
  react_eq : w.react = react
  passed : ∃ handled replies, arrived.filterMap Arrival.notice? = handled ++ w.inbox ∧
    replies.Sublist (arrived.filterMap Arrival.reply?) ∧
    Passed (handled.flatMap react) replies told w.readings

namespace Ledger

variable {react : ν → List (Program Q R ε)} {arrived : List (Arrival ν R)} {told : List ε}
  {w : Work Q R ν ε}

theorem ofReact (react : ν → List (Program Q R ε)) : Ledger react [] [] (.ofReact react) :=
  ⟨rfl, [], [], rfl, .refl _, .refl _⟩

theorem take (h : Ledger react arrived told w) (a : Arrival ν R) :
    Ledger react (arrived ++ [a]) told (conduct.take a w) := by
  obtain ⟨hReact, handled, replies, hArrived, hReplies, hPassed⟩ := h
  cases a with
  | notice n =>
    refine ⟨hReact, handled, replies, ?_, ?_, hPassed⟩
    · simp [conduct, notify, Arrival.notice?, hArrived]
    · simpa [List.filterMap_append, List.filterMap_cons, Arrival.reply?] using hReplies
  | reply r =>
    obtain ⟨used, hUsed, hReplied⟩ := w.passed_reply r
    obtain ⟨hInbox, hSame, -⟩ := w.inbox_reply r
    refine ⟨hSame.trans hReact, handled, replies ++ used, ?_, ?_, ?_⟩
    · simp [conduct, Arrival.notice?, hArrived, hInbox]
    · simpa [Arrival.reply?] using hReplies.append hUsed
    · have hTold : told ++ [] = told := List.append_nil told
      exact hTold ▸ hPassed.trans hReplied
  | ended =>
    refine ⟨hReact, handled, replies, ?_, ?_, hPassed⟩
    · simpa [conduct, List.filterMap_append, List.filterMap_cons, Arrival.notice?] using hArrived
    · simpa [List.filterMap_append, List.filterMap_cons, Arrival.reply?] using hReplies

theorem poll (h : Ledger react arrived told w) (linked : Bool) :
    Ledger react arrived (told ++ (w.poll linked).2) (w.poll linked).1 := by
  obtain ⟨hReact, handled, replies, hArrived, hReplies, hPassed⟩ := h
  obtain ⟨hSame, more, hInbox, hPolled⟩ := w.exchanged_poll linked
  have hMore := passed_iff.mpr ⟨[], rfl, hPolled⟩
  refine ⟨hSame.trans hReact, handled ++ more, replies, ?_, hReplies, ?_⟩
  · rw [hArrived, hInbox, List.append_assoc]
  · rw [hReact] at hMore
    rw [List.flatMap_append]
    simpa using (hPassed.append (more.flatMap react)).trans hMore

end Ledger

end Work

/-! ## Tasks that run -/

/-- What reaches the work of the task at a place by a move. -/
def Move.arrival? (p : Nat) : Move W A → Option A
  | .arrived place a => if place = p then some a else none
  | _ => none

/-- What the task at a place tells in some turns. -/
def toldAt (p : Nat) (turns : List (Turn β)) : List β :=
  (turns.filter fun turn => turn.place = p).flatMap Turn.told

theorem toldAt_append (p : Nat) (turns turns' : List (Turn β)) :
    toldAt p (turns ++ turns') = toldAt p turns ++ toldAt p turns' := by
  simp [toldAt]

theorem toldAt_of_forall {p : Nat} {turns : List (Turn β)} (h : ∀ turn ∈ turns, turn.place = p) :
    toldAt p turns = turns.flatMap Turn.told := by
  have hAll : turns.filter (fun turn => turn.place = p) = turns :=
    List.filter_eq_self.mpr fun turn hMem => by simpa using h turn hMem
  rw [toldAt, hAll]

/-- How work goes on by a move: with what has arrived, and what it has told. -/
inductive Conduct.Goes (k : Conduct W A β) (w : W) : Option A → List β → W → Prop
  | rests : Goes k w none [] w
  | takes (a : A) : Goes k w (some a) [] (k.take a w)
  | goes (linked : Bool) : Goes k w none (k.go linked w).2 (k.go linked w).1

theorem toldAt_of_here (p : Nat) (told : List β) : toldAt p [⟨p, told⟩] = told := by
  simp [toldAt]

theorem toldAt_of_elsewhere {place p : Nat} (h : place ≠ p) (told : List β) :
    toldAt p [⟨place, told⟩] = [] := by
  simp [toldAt, h]

/-- A task that still runs after a poll has gone on with its work. -/
theorem Task.poll_of_still_running {f : W → W × List β} {isDone : W → Bool} {c : Shutdown}
    {first : First} {t : Task W} (hRuns : t.status = .running)
    (hStill : (t.poll f isDone c first).1.status = .running) :
    (t.poll f isDone c first).1.work = (f t.work).1 ∧
      (t.poll f isDone c first).2 = (f t.work).2 := by
  have hOpen : c.isClosed = false := by
    rw [Task.status_poll hRuns] at hStill
    cases hClosed : c.isClosed with
    | true => simp [hClosed] at hStill
    | false => rfl
  rw [Task.work_poll hRuns, (Task.poll_of_running hRuns).2]
  simp [hOpen]

namespace Shared

variable {k : Conduct W A β} {s : Shared W β} {p : Nat}

/-- A task that runs after a move ran before it. -/
theorem exists_running {m : Move W A} {t' : Task W} (hOld : p < s.slot.tasks.length)
    (hTask' : (step k s m).slot.tasks[p]? = some t') (hRuns' : t'.status = .running) :
    ∃ t, s.slot.tasks[p]? = some t ∧ t.status = .running := by
  have hTask : s.slot.tasks[p]? = some s.slot.tasks[p] := List.getElem?_eq_getElem hOld
  refine ⟨_, hTask, ?_⟩
  by_contra hOver
  rw [over_step hTask hOver m] at hTask'
  exact hOver (Option.some.inj hTask' ▸ hRuns')

/-- A task that runs although the slot was abandoned is not the one that was aborted. -/
theorem eq_of_abandon {t t' : Task W} (hTask : s.slot.tasks[p]? = some t)
    (hTask' : s.slot.abandon.tasks[p]? = some t') (hRuns' : t'.status = .running) : t' = t := by
  rw [Slot.abandon, Slot.getElem?_changeAt, hTask] at hTask'
  split at hTask'
  · obtain rfl := Option.some.inj hTask'
    exact absurd hRuns' t.abort_not_running
  · exact (Option.some.inj hTask').symm

theorem work_step {m : Move W A} {t t' : Task W} (hTask : s.slot.tasks[p]? = some t)
    (hRuns : t.status = .running) (hTask' : (step k s m).slot.tasks[p]? = some t')
    (hRuns' : t'.status = .running) :
    ∃ turns, (step k s m).turns = s.turns ++ turns ∧
      k.Goes t.work (m.arrival? p) (toldAt p turns) t'.work := by
  have hOld : p < s.slot.tasks.length := (List.getElem?_eq_some_iff.mp hTask).1
  have hRests : (step k s m).turns = s.turns → m.arrival? p = none → t' = t →
      ∃ turns, (step k s m).turns = s.turns ++ turns ∧
        k.Goes t.work (m.arrival? p) (toldAt p turns) t'.work := by
    rintro hTurns hNone rfl
    exact ⟨[], by rw [hTurns, List.append_nil], hNone ▸ .rests⟩
  have hUnmoved : (step k s m).slot = s.slot → t' = t :=
    fun hSlot => Option.some.inj ((hSlot ▸ hTask').symm.trans hTask)
  cases m with
  | registered work =>
    -- The registration aborts a task, but none that still runs after it.
    by_cases hNone : s.owners = 0
    · have hStep : step k s (.registered work : Move W A) = s := if_pos hNone
      exact hRests (by rw [hStep]) rfl (hUnmoved (by rw [hStep]))
    · have hStep : step k s (.registered work : Move W A) =
          { s with slot := s.slot.register work } := if_neg hNone
      rw [hStep, Slot.getElem?_register_of_lt work hOld] at hTask'
      exact hRests (by rw [hStep]) rfl (eq_of_abandon hTask hTask' hRuns')
  | cloned =>
    have hStep : (step k s (.cloned : Move W A)).slot = s.slot ∧
        (step k s (.cloned : Move W A)).turns = s.turns := by
      simp only [step]
      split <;> exact ⟨rfl, rfl⟩
    exact hRests hStep.2 rfl (hUnmoved hStep.1)
  | dropped =>
    by_cases hOne : s.owners = 1
    · have hStep : step k s (.dropped : Move W A) =
          { s with slot := s.slot.abandon, owners := 0 } := if_pos hOne
      rw [hStep] at hTask'
      exact hRests (by rw [hStep]) rfl (eq_of_abandon hTask hTask' hRuns')
    · have hStep : step k s (.dropped : Move W A) = { s with owners := s.owners - 1 } :=
        if_neg hOne
      exact hRests (by rw [hStep]) rfl (hUnmoved (by rw [hStep]))
  | arrived place a =>
    refine ⟨[], by rw [List.append_nil]; rfl, ?_⟩
    simp only [step, Slot.getElem?_changeAt, hTask] at hTask'
    by_cases hHere : place = p
    · obtain rfl : t.feed (k.take a) = t' := by simpa [hHere] using hTask'
      have hFed : (t.feed (k.take a)).work = k.take a t.work := by simp [Task.feed, hRuns]
      rw [Move.arrival?, if_pos hHere, hFed]
      exact .takes a
    · obtain rfl : t = t' := by simpa [hHere] using hTask'
      rw [Move.arrival?, if_neg hHere]
      exact .rests
  | polled place first linked =>
    by_cases hPolled : s.slot.isRunning place = true
    · obtain ⟨other, hOther, hStatus⟩ := Slot.isRunning_iff.mp hPolled
      rw [step_polled hOther hStatus] at hTask' ⊢
      refine ⟨_, rfl, ?_⟩
      simp only [Slot.getElem?_changeAt, hTask] at hTask'
      by_cases hHere : place = p
      · subst hHere
        obtain rfl : t = other := Option.some.inj (hTask.symm.trans hOther)
        obtain rfl : (t.poll (k.go linked) k.isDone s.channel first).1 = t' := by
          simpa using hTask'
        obtain ⟨hWork, hTold⟩ := Task.poll_of_still_running hRuns hRuns'
        rw [hWork, hTold, toldAt_of_here]
        exact .goes linked
      · obtain rfl : t = t' := by simpa [hHere] using hTask'
        rw [toldAt_of_elsewhere hHere]
        exact .rests
    · have hStep := step_polled_of_over (k := k) hPolled first linked
      exact hRests (by rw [hStep]) rfl (hUnmoved (by rw [hStep]))
  | sent => exact hRests rfl rfl (hUnmoved rfl)
  | closed => exact hRests rfl rfl (hUnmoved rfl)

/-- What holds of the work of a new task, and is kept by all ways in which the work goes on, holds
as long as the task runs. -/
theorem work_run {P : List A → List β → W → Prop} {w : W}
    (hTask : s.slot.tasks[p]? = some (.start w)) (h : P [] [] w)
    (hGoes : ∀ arrived told w a new w', P arrived told w → k.Goes w a new w' →
      P (arrived ++ a.toList) (told ++ new) w')
    (moves : List (Move W A)) {t : Task W} (hLater : (run k s moves).slot.tasks[p]? = some t)
    (hRuns : t.status = .running) :
    ∃ turns, (run k s moves).turns = s.turns ++ turns ∧
      P (moves.filterMap (Move.arrival? p)) (toldAt p turns) t.work := by
  -- From the last move on: that the task ran in between is known because it runs at the end.
  induction moves using List.reverseRecOn generalizing t with
  | nil =>
    obtain rfl : Task.start w = t := Option.some.inj (hTask.symm.trans hLater)
    exact ⟨[], (List.append_nil _).symm, h⟩
  | append_singleton moves m ih =>
    rw [run_concat] at hLater ⊢
    have hOld : p < (run k s moves).slot.tasks.length :=
      Nat.lt_of_lt_of_le (List.getElem?_eq_some_iff.mp hTask).1 (length_run k s moves)
    obtain ⟨before, hBefore, hRan⟩ := exists_running hOld hLater hRuns
    obtain ⟨turns, hTurns, hHolds⟩ := ih hBefore hRan
    obtain ⟨new, hNew, hWent⟩ := work_step hBefore hRan hLater hRuns
    refine ⟨turns ++ new, by rw [hNew, hTurns, List.append_assoc], ?_⟩
    have hArrived : (moves ++ [m]).filterMap (Move.arrival? p) =
        moves.filterMap (Move.arrival? p) ++ (m.arrival? p).toList := by
      cases hArrival : m.arrival? p <;> simp [hArrival]
    rw [hArrived, toldAt_append]
    exact hGoes _ _ _ _ _ _ hHolds hWent

/-- The ledger of a task since its registration, as long as it runs. -/
theorem ledger_run {s : Shared (Work Q R ν ε) ε} {react : ν → List (Program Q R ε)}
    (hTask : s.slot.tasks[p]? = some (.start (.ofReact react)))
    (moves : List (Move (Work Q R ν ε) (Arrival ν R))) {t : Task (Work Q R ν ε)}
    (hLater : (run Work.conduct s moves).slot.tasks[p]? = some t) (hRuns : t.status = .running) :
    ∃ turns, (run Work.conduct s moves).turns = s.turns ++ turns ∧
      Work.Ledger react (moves.filterMap (Move.arrival? p)) (toldAt p turns) t.work := by
  refine work_run hTask (Work.Ledger.ofReact react) ?_ moves hLater hRuns
  intro arrived told w a new w' hLedger hWent
  cases hWent with
  | rests => simpa using hLedger
  | takes a => simpa using hLedger.take a
  | goes linked => simpa [Work.conduct] using hLedger.poll linked

end Shared

end ModemLink.Observer
