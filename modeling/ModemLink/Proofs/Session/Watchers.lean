import ModemLink.Proofs.Observer.Ledger
import ModemLink.Proofs.Session.Registrations

/-!
# What watchers tell

A watcher reacts to the signals that its watch asks for, and to no others, and its readings get the
replies that the bus gives to their own questions. So what it tells follows from the signals that it
has heard, one after the other, and from these replies; what one signal leads to does not depend on
any other. A watcher that runs comes to its rest after a bounded number of replies.

* `Watcher.conduct`: what watchers do with signals and with the replies of a bus.
* `Client.turnSlot_eq_run`: the turns in a session are such moves.
* `Watcher.Account`: all that has happened to a watcher.
* `Watch.Tells`, `Watch.tells_of_parts`: what a watcher tells from its registration on.
-/

namespace ModemLink

open Observer (Conduct Move Shared Slot Work toldAt)

namespace Watcher

/-! ## Moves -/

/-- What reaches a watcher: a signal, or the reply of a bus to the question that it asks. -/
inductive Arrival
  | heard (path interface member : String) (arguments : List Bus.Value)
  | answered (answer : Bus.Query → Bus.Reply)

/-- The watcher with the reply to its question, if it asks one. -/
def answered (answer : Bus.Query → Bus.Reply) (w : Watcher) : Watcher :=
  match w.work.question? with
  | some q => w.reply (answer q)
  | none => w

/-- The conduct of watchers. -/
def conduct : Conduct Watcher Arrival (String × Notification) where
  go := Watcher.poll
  isDone := Watcher.isDone
  take
    | .heard path interface member arguments, w => w.hear path interface member arguments
    | .answered answer, w => w.answered answer

namespace Arrival

/-- The arguments of a signal that a subscription is for. -/
def notice? (subscription : Option Bus.Subscription) : Arrival → Option (List Bus.Value)
  | .heard path interface member arguments =>
    if subscription.any fun s => s.path = path ∧ s.interface = interface ∧ s.member = member then
      some arguments
    else none
  | .answered _ => none

def answer? : Arrival → Option (Bus.Query → Bus.Reply)
  | .heard .. => none
  | .answered answer => some answer

end Arrival

end Watcher

open Watcher (Arrival)

/-- In a session the turn of the observer in a slot is a poll and, if it asks, the reply of the
bus. -/
theorem Client.turnSlot_eq_run (linked : Bool) {slot : Slot Watcher}
    {shared : Shared Watcher (String × Notification)} (hSlot : shared.slot = slot)
    (hChannel : shared.channel = .silent) (s : Scene) :
    ∃ answer, (turnSlot linked slot s).1 =
      (shared.run Watcher.conduct [.polled slot.last .work linked,
        .arrived slot.last (.answered answer)]).slot := by
  let polled := slot.poll (Watcher.poll linked) Watcher.isDone
  let answer (q : Bus.Query) : Bus.Reply := ((s.tell polled.2).ask q).1
  refine ⟨answer, ?_⟩
  have hPolled : (shared.step Watcher.conduct (.polled slot.last .work linked)).slot =
      polled.1 := by
    by_cases hRuns : shared.slot.isRunning slot.last = true
    · rw [Shared.step, if_pos hRuns, hChannel, hSlot]
      rfl
    · have hNone : slot.running? = none := by
        refine Option.eq_none_iff_forall_ne_some.mpr fun w hRunning => hRuns ?_
        obtain ⟨t, hTask, hStatus, -⟩ := Slot.running?_eq_some_iff.mp hRunning
        exact Slot.isRunning_iff.mpr ⟨t, hSlot ▸ hTask, hStatus⟩
      have hRests : polled = (slot, []) := Slot.poll_of_none _ _ hNone
      rw [Shared.step, if_neg hRuns, hSlot, hRests]
  have hRun : (shared.run Watcher.conduct [.polled slot.last .work linked,
      .arrived slot.last (.answered answer)]).slot = polled.1.update (Watcher.answered answer) := by
    rw [Slot.update, Slot.last_poll, ← hPolled]
    rfl
  rw [hRun]
  unfold turnSlot
  dsimp only
  split
  · rename_i hSilent
    refine (Slot.update_id _).symm.trans (Slot.update_congr fun w hRuns => ?_)
    have hNone : w.work.question? = none := by simpa [polled, hRuns] using hSilent
    simp [Watcher.answered, hNone]
  · rename_i q hAsks
    refine Slot.update_congr fun w hRuns => ?_
    have hQuestion : w.work.question? = some q := by simpa [polled, hRuns] using hAsks
    simp [Watcher.answered, hQuestion, answer, polled]

namespace Watcher

/-! ## The account of a watcher -/

/-- The exchanges are questions with what a bus answered to them, in order. -/
def Answered (answers : List (Bus.Query → Bus.Reply)) (exchanges : List (Bus.Query × Bus.Reply)) :
    Prop :=
  List.SublistForall₂ (fun e answer => e.2 = answer e.1) exchanges answers

theorem Answered.concat {answers : List (Bus.Query → Bus.Reply)}
    {exchanges : List (Bus.Query × Bus.Reply)} (h : Answered answers exchanges)
    (answer : Bus.Query → Bus.Reply) (q : Bus.Query) :
    Answered (answers ++ [answer]) (exchanges ++ [(q, answer q)]) := by
  obtain ⟨used, hUsed, hSub⟩ := List.sublistForall₂_iff.mp h
  exact List.sublistForall₂_iff.mpr
    ⟨used ++ [answer], List.rel_append hUsed (.cons rfl .nil), hSub.append (.refl _)⟩

theorem Answered.mono {answers more : List (Bus.Query → Bus.Reply)}
    {exchanges : List (Bus.Query × Bus.Reply)} (h : Answered answers exchanges)
    (hMore : answers.Sublist more) : Answered more exchanges := by
  obtain ⟨used, hUsed, hSub⟩ := List.sublistForall₂_iff.mp h
  exact List.sublistForall₂_iff.mpr ⟨used, hUsed, hSub.trans hMore⟩

/-- All that has happened to the watcher of a watch, which reports under a tag. -/
structure Account (watch : Watch) (tag : String) (arrived : List Arrival)
    (told : List (String × Notification)) (w : Watcher) : Prop where
  tag_eq : w.tag = tag
  subscription_eq : w.subscription = watch.subscription
  work : ∃ exchanges delivered, told = delivered.map (fun n => (tag, n)) ∧
    Answered (arrived.filterMap Arrival.answer?) exchanges ∧
    Work.Account watch.react (arrived.filterMap (Arrival.notice? watch.subscription)) exchanges
      delivered w.work

namespace Account

variable {watch : Watch} {tag : String} {arrived : List Arrival}
  {told : List (String × Notification)} {w : Watcher}

theorem ofWatch (watch : Watch) (tag : String) : Account watch tag [] [] (.ofWatch tag watch) :=
  ⟨rfl, rfl, [], [], rfl, .nil, .ofReact watch.react⟩

theorem take (h : Account watch tag arrived told w) (a : Arrival) :
    Account watch tag (arrived ++ [a]) told (conduct.take a w) := by
  obtain ⟨hTag, hSubscription, exchanges, delivered, hTold, hAnswered, hWork⟩ := h
  cases a with
  | heard path interface member arguments =>
    refine ⟨(w.tag_hear _ _ _ _).trans hTag, ?_, exchanges, delivered, hTold, ?_, ?_⟩
    · simp only [conduct, hear]
      split <;> exact hSubscription
    · rwa [List.filterMap_append, List.filterMap_cons_none rfl, List.filterMap_nil,
        List.append_nil]
    · rw [List.filterMap_append]
      by_cases hHears : w.hears path interface member = true
      · have hNotice : Arrival.notice? watch.subscription
            (.heard path interface member arguments) = some arguments :=
          if_pos (hSubscription ▸ hHears)
        have hTaken : (w.hear path interface member arguments).work = w.work.notify arguments := by
          rw [hear, if_pos hHears]
        rw [List.filterMap_cons_some hNotice]
        exact hTaken ▸ hWork.notify arguments
      · have hNotice : Arrival.notice? watch.subscription
            (.heard path interface member arguments) = none :=
          if_neg (hSubscription ▸ hHears)
        have hTaken : conduct.take (.heard path interface member arguments) w = w :=
          if_neg hHears
        rw [List.filterMap_cons_none hNotice, List.filterMap_nil, List.append_nil, hTaken]
        exact hWork
  | answered answer =>
    have hNotices : (arrived ++ [Arrival.answered answer]).filterMap
        (Arrival.notice? watch.subscription) =
        arrived.filterMap (Arrival.notice? watch.subscription) := by
      rw [List.filterMap_append, List.filterMap_cons_none rfl, List.filterMap_nil, List.append_nil]
    have hAnswers : (arrived ++ [Arrival.answered answer]).filterMap Arrival.answer? =
        arrived.filterMap Arrival.answer? ++ [answer] := List.filterMap_append
    have hTaken : conduct.take (.answered answer) w = w.answered answer := rfl
    rw [hTaken, answered]
    split
    · rename_i q hAsks
      exact ⟨hTag, hSubscription, _, delivered, hTold, hAnswers ▸ hAnswered.concat answer q,
        hNotices ▸ hWork.reply hAsks (answer q)⟩
    · exact ⟨hTag, hSubscription, exchanges, delivered, hTold,
        hAnswers ▸ hAnswered.mono (List.sublist_append_left _ _), hNotices ▸ hWork⟩

theorem poll (h : Account watch tag arrived told w) (linked : Bool) :
    Account watch tag arrived (told ++ (w.poll linked).2) (w.poll linked).1 := by
  obtain ⟨hTag, hSubscription, exchanges, delivered, hTold, hAnswered, hWork⟩ := h
  refine ⟨hTag, hSubscription, exchanges, delivered ++ (w.work.poll linked).2, ?_, hAnswered,
    hWork.poll linked⟩
  rw [hTold, List.map_append, ← hTag]
  rfl

end Account

/-! ## Rounds -/

/-- A poll of a task and the reply to what it then asks. -/
structure Round where
  first : Observer.Task.First
  linked : Bool
  answer : Bus.Query → Bus.Reply

/-- The moves of some rounds of the task at a place. -/
def rounds (p : Nat) (rs : List Round) : List (Move Watcher Arrival) :=
  rs.flatMap fun r => [.polled p r.first r.linked, .arrived p (.answered r.answer)]

theorem work_round (r : Round) (w : Watcher) :
    ((w.poll r.linked).1.answered r.answer).work = w.work.round r.linked r.answer := by
  have hQuestion : (w.poll r.linked).1.work.question? = (w.work.poll r.linked).1.question? := rfl
  unfold answered Work.round
  rw [hQuestion]
  cases (w.work.poll r.linked).1.question? <;> rfl

variable {s : Shared Watcher (String × Notification)} {p : Nat} {t : Observer.Task Watcher}

/-- As long as the channel is open, a watcher that waits for further signals is not finished by a
round. -/
theorem run_round (hTask : s.slot.tasks[p]? = some t) (hRuns : t.status = .running)
    (hOpen : s.channel.isClosed = false) (r : Round)
    (hEnded : (t.work.work.poll r.linked).1.ended = false) :
    (s.run conduct (rounds p [r])).channel = s.channel ∧
      ∃ t', (s.run conduct (rounds p [r])).slot.tasks[p]? = some t' ∧ t'.status = .running ∧
        t'.work.work = t.work.work.round r.linked r.answer := by
  let polled := (t.poll (conduct.go r.linked) conduct.isDone s.channel r.first).1
  have hDone : conduct.isDone (conduct.go r.linked t.work).1 = false := by
    simp [conduct, isDone, poll, Work.isDone, hEnded]
  have hStatus : polled.status = .running := by
    simp [polled, Observer.Task.status_poll hRuns, hOpen, hDone]
  have hWork : polled.work = (t.work.poll r.linked).1 := by
    simp [polled, Observer.Task.work_poll hRuns, hOpen, conduct]
  have hRun : s.run conduct (rounds p [r]) =
      (s.step conduct (.polled p r.first r.linked)).step conduct
        (.arrived p (.answered r.answer)) := rfl
  rw [hRun, Shared.step_polled hTask hRuns]
  refine ⟨rfl, polled.feed (conduct.take (.answered r.answer)), ?_, ?_, ?_⟩
  · simp only [Shared.step, Slot.getElem?_changeAt, if_pos, hTask, Option.map_some]
    rfl
  · rw [Observer.Task.status_feed, hStatus]
  · rw [Observer.Task.feed, if_pos hStatus, ← work_round, ← hWork]
    rfl

/-- As long as the channel is open, enough rounds leave nothing to do. -/
theorem isIdle_rounds {react : List Bus.Value → List (Request Notification)} {k : Nat}
    {notices : List (List Bus.Value)} {exchanges : List (Bus.Query × Bus.Reply)}
    {delivered : List Notification} (hNeeds : ∀ body, Work.Needs (react body) k)
    (hTask : s.slot.tasks[p]? = some t) (hRuns : t.status = .running)
    (hOpen : s.channel.isClosed = false)
    (h : Work.Account react notices exchanges delivered t.work.work) {rs : List Round}
    (hEnough : t.work.isIdle = true ∨ k * notices.length < exchanges.length + rs.length) :
    ∃ t', (s.run conduct (rounds p rs)).slot.tasks[p]? = some t' ∧ t'.status = .running ∧
      t'.work.isIdle = true := by
  induction rs generalizing s t exchanges delivered with
  | nil =>
    have hLength := h.length_le hNeeds
    exact ⟨t, hTask, hRuns, hEnough.resolve_right (by simpa using hLength)⟩
  | cons r rest ih =>
    obtain ⟨hChannel, t', hTask', hRuns', hWork⟩ :=
      run_round hTask hRuns hOpen r (h.poll r.linked).ended_eq
    obtain ⟨exchanges', delivered', hAccount, hProgress⟩ := h.round r.linked r.answer
    have hRun : s.run conduct (rounds p (r :: rest)) =
        (s.run conduct (rounds p [r])).run conduct (rounds p rest) := List.foldl_append
    rw [hRun]
    refine ih hTask' hRuns' (hChannel ▸ hOpen) (hWork ▸ hAccount) ?_
    rcases hEnough with hIdle | hLess
    · left
      rw [isIdle, hWork]
      exact Work.isIdle_round hIdle r.linked r.answer
    · rw [isIdle, hWork]
      refine hProgress.imp_right fun hMore => ?_
      rw [List.length_cons] at hLess
      omega

/-! ## From the registration on -/

/-- The account of a watcher since its registration, as long as it runs. -/
theorem account_run {watch : Watch} {tag : String}
    (hTask : s.slot.tasks[p]? = some (.start (.ofWatch tag watch)))
    (moves : List (Move Watcher Arrival)) (hLater : (s.run conduct moves).slot.tasks[p]? = some t)
    (hRuns : t.status = .running) :
    ∃ turns, (s.run conduct moves).turns = s.turns ++ turns ∧
      Account watch tag (moves.filterMap (Move.arrival? p)) (toldAt p turns) t.work := by
  refine Shared.work_run hTask (.ofWatch watch tag) ?_ moves hLater hRuns
  intro arrived told w a new w' h hWent
  cases hWent with
  | rests => simpa using h
  | takes a => simpa using h.take a
  | goes linked => simpa [conduct] using h.poll linked

/-- Something is told after some signals were heard, of each of which one part tells what it led to,
with the exchanges of its readings. While there still is something to do it may be the beginning of
all this; and the replies are those of the bus. -/
def Told (part : List Bus.Value → List (Bus.Query × Bus.Reply) → List Notification → Prop)
    (heard : List (List Bus.Value)) (answers : List (Bus.Query → Bus.Reply)) (isIdle : Bool)
    (told : List Notification) : Prop :=
  ∃ (parts : List (List (Bus.Query × Bus.Reply) × List Notification))
    (exchanges : List (Bus.Query × Bus.Reply)),
    List.Forall₂ (fun body x => part body x.1 x.2) heard parts ∧ Answered answers exchanges ∧
      exchanges <+: parts.flatMap Prod.fst ∧ told <+: parts.flatMap Prod.snd ∧
      (isIdle = true → exchanges = parts.flatMap Prod.fst ∧ told = parts.flatMap Prod.snd)

end Watcher

namespace Watch

open Watcher (conduct rounds)

/-- However a watcher of the watch goes on once it is registered, what it tells is what the signals
lead to that it hears, one after the other; and as long as the manager keeps the channel open, the
replies to its questions bring it to rest. -/
def Tells (watch : Watch)
    (part : List Bus.Value → List (Bus.Query × Bus.Reply) → List Notification → Prop) : Prop :=
  ∀ (tag : String) (s : Shared Watcher (String × Notification))
    (moves : List (Move Watcher Arrival)) (t : Observer.Task Watcher), 0 < s.owners →
    let p := s.slot.tasks.length
    let now := s.run conduct (.registered (.ofWatch tag watch) :: moves)
    let arrived := moves.filterMap (Move.arrival? p)
    now.slot.tasks[p]? = some t → t.status = .running →
    (∃ turns told, now.turns = s.turns ++ turns ∧ toldAt p turns = told.map (fun n => (tag, n)) ∧
      Watcher.Told part (arrived.filterMap (Arrival.notice? watch.subscription))
        (arrived.filterMap Arrival.answer?) t.work.isIdle told) ∧
    (now.channel.isClosed = false → ∃ n, ∀ rs, n ≤ rs.length →
      ∃ t', (now.run conduct (rounds p rs)).slot.tasks[p]? = some t' ∧ t'.status = .running ∧
        t'.work.isIdle = true)

theorem tells_of_parts {watch : Watch} {k : Nat}
    {part : List Bus.Value → List (Bus.Query × Bus.Reply) → List Notification → Prop}
    (hNeeds : ∀ body, Work.Needs (watch.react body) k)
    (hParts : ∀ body exchanges told, Work.Exchanged (watch.react body) exchanges told [] →
      part body exchanges told) : watch.Tells part := by
  intro tag s moves t hOwned p now arrived hLater hRuns
  have hRegistered : s.step conduct (.registered (.ofWatch tag watch)) =
      { s with slot := s.slot.register (.ofWatch tag watch) } := if_neg (Nat.ne_of_gt hOwned)
  have hTask : (s.step conduct (.registered (.ofWatch tag watch))).slot.tasks[p]? =
      some (.start (.ofWatch tag watch)) := by
    rw [hRegistered, Slot.getElem?_register_length]
  obtain ⟨turns, hTurns, hTag, hSubscription, exchanges, told, hTold, hAnswered, hWork⟩ :=
    Watcher.account_run hTask moves hLater hRuns
  refine ⟨⟨turns, told, hTurns.trans (by rw [hRegistered]), hTold, ?_⟩, fun hOpen => ?_⟩
  · obtain ⟨parts, hEach, hAsked, hDelivered, hAll⟩ := hWork.parts
    exact ⟨parts, exchanges, hEach.imp fun body x hx => hParts body x.1 x.2 hx, hAnswered, hAsked,
      hDelivered, hAll⟩
  · refine ⟨k * (arrived.filterMap (Arrival.notice? watch.subscription)).length + 1,
      fun rs hLength => Watcher.isIdle_rounds hNeeds hLater hRuns hOpen hWork (.inr ?_)⟩
    exact Nat.lt_of_lt_of_le hLength (Nat.le_add_left _ _)

/-- The turns of a watcher that is alone in its slot, and at rest, have all that it has told. -/
theorem Tells.told_of_turns {watch : Watch} {tag : String} {moves : List (Move Watcher Arrival)}
    {part : List Bus.Value → List (Bus.Query × Bus.Reply) → List Notification → Prop}
    (h : watch.Tells part) {now : Shared Watcher (String × Notification)}
    (hRuns : now.slot.isRunning 0 = true)
    (hRests : (now.slot.tasks[0]?.any fun t => t.work.isIdle) = true) {told : List Notification}
    (hTold : toldAt 0 now.turns = told.map fun n => (tag, n))
    (hNow : now = (Shared.fresh .silent).run conduct (.registered (.ofWatch tag watch) :: moves))
    {heard : List (List Bus.Value)} {answers : List (Bus.Query → Bus.Reply)}
    (hHeard : (moves.filterMap (Move.arrival? 0)).filterMap
      (Arrival.notice? watch.subscription) = heard)
    (hAnswers : (moves.filterMap (Move.arrival? 0)).filterMap Arrival.answer? = answers) :
    ∃ t, now.slot.tasks[0]? = some t ∧ t.status = .running ∧
      Watcher.Told part heard answers true told := by
  obtain ⟨t, hTask, hRunning⟩ := Slot.isRunning_iff.mp hRuns
  subst hNow hHeard hAnswers
  obtain ⟨⟨turns, told', hTurns, hTold', hAll⟩, -⟩ :=
    h tag (.fresh .silent) moves t Nat.one_pos hTask hRunning
  have hIdle : t.work.isIdle = true := by simpa [hTask] using hRests
  have hSame : told' = told := by
    rw [hTurns] at hTold
    exact List.map_injective_iff.mpr (fun _ _ hPair => (Prod.mk.inj hPair).2)
      (hTold'.symm.trans hTold)
  rw [hIdle, hSame] at hAll
  exact ⟨t, hTask, hRunning, hAll⟩

end Watch

end ModemLink
