import Mathlib.Data.List.Basic
import Mathlib.Data.List.Forall2
import ModemLink.Observer.Work
import ModemLink.Proofs.Program.Ends

/-!
# What readings ask and deliver

Readings are done one after the other. Each asks its questions and goes on with the replies to
them, until it succeeds and delivers something or fails and delivers nothing. So whoever knows what
was asked, and what the replies were, knows what was delivered, and the readings of one notice do
not depend on those of another.

* `Exchanged`: readings that are gone through with questions and replies, and what they deliver.
* `exchanged_poll`, `exchanged_reply`: what polls and replies do to work.
* `Exchanged.head`, `Exchanged.split`, `Exchanged.parts`: readings, apart from those behind them.
* `Needs`, `Exchanged.needs`: a bound on the questions.
* `Account`: all that has happened to work, and how it goes on (`Account.round`).
-/

namespace ModemLink.Observer.Work

variable {Q R ν ε : Type}

/-! ## Readings -/

/-- Readings, the questions and replies with which they are gone through, what they deliver, and
what is left of them. -/
inductive Exchanged :
    List (Program Q R ε) → List (Q × R) → List ε → List (Program Q R ε) → Prop
  | refl (readings : List (Program Q R ε)) : Exchanged readings [] [] readings
  | looked {next : Bool → Program Q R ε} (linked : Bool) {rest exchanges told left}
      (h : Exchanged (next linked :: rest) exchanges told left) :
      Exchanged (.whetherLinked next :: rest) exchanges told left
  | replied {q : Q} {next : R → Program Q R ε} (r : R) {rest exchanges told left}
      (h : Exchanged (next r :: rest) exchanges told left) :
      Exchanged (.ask q next :: rest) ((q, r) :: exchanges) told left
  | delivered (e : ε) {rest exchanges told left} (h : Exchanged rest exchanges told left) :
      Exchanged (.done e :: rest) exchanges (e :: told) left
  /-- A reading that fails is passed over. -/
  | failed (e : Error) {rest exchanges told left} (h : Exchanged rest exchanges told left) :
      Exchanged (.fail e :: rest) exchanges told left

variable {readings left left' : List (Program Q R ε)} {exchanges exchanges' : List (Q × R)}
  {told told' : List ε}

theorem Exchanged.trans (h : Exchanged readings exchanges told left)
    (h' : Exchanged left exchanges' told' left') :
    Exchanged readings (exchanges ++ exchanges') (told ++ told') left' := by
  induction h with
  | refl readings => exact h'
  | looked linked h ih => exact .looked linked (ih h')
  | replied r h ih => exact .replied r (ih h')
  | delivered e h ih => exact .delivered e (ih h')
  | failed e h ih => exact .failed e (ih h')

/-- Readings that stand behind others stay as they are until those are gone through. -/
theorem Exchanged.append (h : Exchanged readings exchanges told left)
    (behind : List (Program Q R ε)) :
    Exchanged (readings ++ behind) exchanges told (left ++ behind) := by
  induction h with
  | refl readings => exact .refl _
  | looked linked h ih => exact .looked linked ih
  | replied r h ih => exact .replied r ih
  | delivered e h ih => exact .delivered e ih
  | failed e h ih => exact .failed e ih

theorem Exchanged.of_proceed (linked : Bool) {p : Program Q R ε} {rest : List (Program Q R ε)}
    (h : Exchanged (p.proceed linked :: rest) exchanges told left) :
    Exchanged (p :: rest) exchanges told left := by
  induction p with
  | done e => exact h
  | fail e => exact h
  | ask q next _ => exact h
  | whetherLinked next ih => exact .looked linked (ih linked h)

theorem exchanged_pass (linked : Bool) (readings : List (Program Q R ε)) :
    Exchanged readings [] (pass linked readings).1 (pass linked readings).2 := by
  induction readings with
  | nil => exact .refl []
  | cons p rest ih =>
    refine .of_proceed linked ?_
    unfold pass
    cases p.proceed linked with
    | done e => exact .delivered e ih
    | fail e => exact .failed e ih
    | ask q next => exact .refl _
    | whetherLinked next => exact .refl _

theorem exchanged_passNotices (react : ν → List (Program Q R ε)) (linked : Bool)
    (notices : List ν) :
    ∃ handled, notices = handled ++ (passNotices react linked notices).2.1 ∧
      Exchanged (handled.flatMap react) [] (passNotices react linked notices).1
        (passNotices react linked notices).2.2 := by
  induction notices with
  | nil => exact ⟨[], rfl, .refl []⟩
  | cons n rest ih =>
    have hFirst := exchanged_pass linked (react n)
    unfold passNotices
    split
    · rename_i delivered hPass
      rw [hPass] at hFirst
      obtain ⟨handled, hRest, hMore⟩ := ih
      refine ⟨n :: handled, congrArg (n :: ·) hRest, ?_⟩
      exact (hFirst.append (handled.flatMap react)).trans hMore
    · rename_i delivered left _ hPass
      rw [hPass] at hFirst
      exact ⟨[n], rfl, by simpa using hFirst⟩

/-- A poll goes through readings and reacts to notices, without any question. -/
theorem exchanged_poll (linked : Bool) (w : Work Q R ν ε) :
    (w.poll linked).1.react = w.react ∧
      ∃ handled, w.inbox = handled ++ (w.poll linked).1.inbox ∧
        Exchanged (w.readings ++ handled.flatMap w.react) [] (w.poll linked).2
          (w.poll linked).1.readings := by
  have hReadings := exchanged_pass linked w.readings
  unfold poll
  split
  · rename_i delivered hPass
    rw [hPass] at hReadings
    obtain ⟨handled, hInbox, hNotices⟩ := exchanged_passNotices w.react linked w.inbox
    exact ⟨rfl, handled, hInbox, (hReadings.append _).trans hNotices⟩
  · rename_i delivered left _ hPass
    rw [hPass] at hReadings
    exact ⟨rfl, [], rfl, by simpa using hReadings⟩

/-- A reply goes to the reading that waits for it. -/
theorem exchanged_reply {w : Work Q R ν ε} {q : Q} (h : w.question? = some q) (r : R) :
    Exchanged w.readings [(q, r)] [] (w.reply r).readings := by
  unfold question? at h
  unfold reply
  split at h
  · rename_i asked next rest hReadings
    obtain rfl := Option.some.inj h
    rw [hReadings]
    exact .replied r (.refl _)
  · cases h

theorem reply_of_no_question {w : Work Q R ν ε} (h : w.question? = none) (r : R) :
    w.reply r = w := by
  unfold question? at h
  unfold reply
  split at h
  · cases h
  · rfl

theorem inbox_reply (w : Work Q R ν ε) (r : R) :
    (w.reply r).inbox = w.inbox ∧ (w.reply r).react = w.react ∧ (w.reply r).ended = w.ended := by
  unfold reply
  split <;> exact ⟨rfl, rfl, rfl⟩

/-! ## Notices apart -/

/-- The first reading is gone through before any other. -/
theorem Exchanged.head {p : Program Q R ε} {rest : List (Program Q R ε)}
    (h : Exchanged (p :: rest) exchanges told []) :
    ∃ now later toldNow toldLater, exchanges = now ++ later ∧ told = toldNow ++ toldLater ∧
      Exchanged [p] now toldNow [] ∧ Exchanged rest later toldLater [] := by
  induction p generalizing exchanges told with
  | done e =>
    cases h with
    | delivered _ h => exact ⟨[], _, [e], _, rfl, rfl, .delivered e (.refl []), h⟩
  | fail e =>
    cases h with
    | failed _ h => exact ⟨[], _, [], _, rfl, rfl, .failed e (.refl []), h⟩
  | ask q next ih =>
    cases h with
    | replied r h =>
      obtain ⟨now, later, toldNow, toldLater, rfl, rfl, hFirst, hRest⟩ := ih r h
      exact ⟨(q, r) :: now, later, toldNow, toldLater, rfl, rfl, .replied r hFirst, hRest⟩
  | whetherLinked next ih =>
    cases h with
    | looked linked h =>
      obtain ⟨now, later, toldNow, toldLater, rfl, rfl, hFirst, hRest⟩ := ih linked h
      exact ⟨now, later, toldNow, toldLater, rfl, rfl, .looked linked hFirst, hRest⟩

/-- Readings that are gone through together with others are gone through by themselves. -/
theorem Exchanged.split {first rest : List (Program Q R ε)}
    (h : Exchanged (first ++ rest) exchanges told []) :
    ∃ now later toldNow toldLater, exchanges = now ++ later ∧ told = toldNow ++ toldLater ∧
      Exchanged first now toldNow [] ∧ Exchanged rest later toldLater [] := by
  induction first generalizing exchanges told with
  | nil => exact ⟨[], exchanges, [], told, rfl, rfl, .refl [], h⟩
  | cons p first ih =>
    obtain ⟨one, others, toldOne, toldOthers, rfl, rfl, hOne, hOthers⟩ := h.head
    obtain ⟨now, later, toldNow, toldLater, rfl, rfl, hFirst, hRest⟩ := ih hOthers
    exact ⟨one ++ now, later, toldOne ++ toldNow, toldLater, (List.append_assoc ..).symm,
      (List.append_assoc ..).symm, (hOne.append first).trans hFirst, hRest⟩

/-- What the readings of each of some notices ask and deliver. -/
theorem Exchanged.parts {react : ν → List (Program Q R ε)} {notices : List ν}
    (h : Exchanged (notices.flatMap react) exchanges told []) :
    ∃ parts : List (List (Q × R) × List ε),
      List.Forall₂ (fun n part => Exchanged (react n) part.1 part.2 []) notices parts ∧
      exchanges = parts.flatMap Prod.fst ∧ told = parts.flatMap Prod.snd := by
  induction notices generalizing exchanges told with
  | nil =>
    cases h
    exact ⟨[], .nil, rfl, rfl⟩
  | cons n rest ih =>
    rw [List.flatMap_cons] at h
    obtain ⟨now, later, toldNow, toldLater, rfl, rfl, hFirst, hRest⟩ := h.split
    obtain ⟨parts, hParts, rfl, rfl⟩ := ih hRest
    exact ⟨(now, toldNow) :: parts, .cons hFirst hParts, rfl, rfl⟩

/-- Readings can be gone through: some replies lead to their end. -/
theorem exists_exchanged [Nonempty R] (readings : List (Program Q R ε)) :
    ∃ exchanges told, Exchanged readings exchanges told [] := by
  induction readings with
  | nil => exact ⟨[], [], .refl []⟩
  | cons p rest ih =>
    obtain ⟨later, toldLater, hRest⟩ := ih
    suffices hFirst : ∃ now toldNow, Exchanged [p] now toldNow [] by
      obtain ⟨now, toldNow, hFirst⟩ := hFirst
      exact ⟨_, _, (hFirst.append rest).trans hRest⟩
    induction p with
    | done e => exact ⟨[], [e], .delivered e (.refl [])⟩
    | fail e => exact ⟨[], [], .failed e (.refl [])⟩
    | ask q next ih =>
      obtain ⟨r⟩ := ‹Nonempty R›
      obtain ⟨now, toldNow, hFirst⟩ := ih r
      exact ⟨_, _, .replied r hFirst⟩
    | whetherLinked next ih =>
      obtain ⟨now, toldNow, hFirst⟩ := ih true
      exact ⟨_, _, .looked true hFirst⟩

/-! ## How much is asked -/

/-- However the replies are, the readings ask no more than so many questions. -/
def Needs : List (Program Q R ε) → Nat → Prop
  | [], _ => True
  | p :: rest, n => ∃ k ≤ n, p.Ends (fun _ => True) k ∧ Needs rest (n - k)

theorem Needs.mono {n m : Nat} (h : Needs readings n) (hLe : n ≤ m) : Needs readings m := by
  induction readings generalizing n m with
  | nil => trivial
  | cons p rest ih =>
    obtain ⟨k, hk, hFirst, hRest⟩ := h
    exact ⟨k, Nat.le_trans hk hLe, hFirst, ih hRest (Nat.sub_le_sub_right hLe k)⟩

theorem Needs.append {first rest : List (Program Q R ε)} {n m : Nat} (hFirst : Needs first n)
    (hRest : Needs rest m) : Needs (first ++ rest) (n + m) := by
  induction first generalizing n with
  | nil => exact hRest.mono (Nat.le_add_left m n)
  | cons p first ih =>
    obtain ⟨k, hk, hEnds, hMore⟩ := hFirst
    refine ⟨k, Nat.le_add_right_of_le hk, hEnds, ?_⟩
    rw [Nat.sub_add_comm hk]
    exact ih hMore

theorem Needs.flatMap {react : ν → List (Program Q R ε)} {k : Nat} (h : ∀ n, Needs (react n) k)
    (notices : List ν) : Needs (notices.flatMap react) (k * notices.length) := by
  induction notices with
  | nil => trivial
  | cons n rest ih =>
    rw [List.flatMap_cons, List.length_cons, Nat.mul_succ, Nat.add_comm]
    exact (h n).append ih

/-- What has been asked was needed, and so much less is needed for what is left. -/
theorem Exchanged.needs (h : Exchanged readings exchanges told left) {n : Nat}
    (hNeeds : Needs readings n) : exchanges.length ≤ n ∧ Needs left (n - exchanges.length) := by
  induction h generalizing n with
  | refl readings => exact ⟨Nat.zero_le n, hNeeds⟩
  | looked linked h ih =>
    obtain ⟨k, hk, hEnds, hRest⟩ := hNeeds
    exact ih ⟨k, hk, hEnds linked, hRest⟩
  | replied r h ih =>
    obtain ⟨k, hk, hEnds, hRest⟩ := hNeeds
    cases k with
    | zero => exact hEnds.elim
    | succ k =>
      have hLess : n - (k + 1) = n - 1 - k := by omega
      obtain ⟨hLength, hLeft⟩ := ih (n := n - 1) ⟨k, by omega, hEnds r, hLess ▸ hRest⟩
      refine ⟨by simp only [List.length_cons]; omega, hLeft.mono ?_⟩
      simp only [List.length_cons]
      omega
  | delivered e h ih =>
    obtain ⟨k, hk, -, hRest⟩ := hNeeds
    obtain ⟨hLength, hLeft⟩ := ih hRest
    exact ⟨by omega, hLeft.mono (by omega)⟩
  | failed e h ih =>
    obtain ⟨k, hk, -, hRest⟩ := hNeeds
    obtain ⟨hLength, hLeft⟩ := ih hRest
    exact ⟨by omega, hLeft.mono (by omega)⟩

/-! ## The account of work -/

/-- All that has happened to work: the notices that have come are those that were handled and those
in the inbox, and the readings of the former were gone through with the exchanges that there were,
up to those that are left. -/
structure Account (react : ν → List (Program Q R ε)) (notices : List ν)
    (exchanges : List (Q × R)) (told : List ε) (w : Work Q R ν ε) : Prop where
  react_eq : w.react = react
  ended_eq : w.ended = false
  exchanged : ∃ handled, notices = handled ++ w.inbox ∧
    Exchanged (handled.flatMap react) exchanges told w.readings

namespace Account

variable {react : ν → List (Program Q R ε)} {notices : List ν} {w : Work Q R ν ε}

theorem ofReact (react : ν → List (Program Q R ε)) : Account react [] [] [] (.ofReact react) :=
  ⟨rfl, rfl, [], rfl, .refl []⟩

theorem notify (h : Account react notices exchanges told w) (n : ν) :
    Account react (notices ++ [n]) exchanges told (w.notify n) := by
  obtain ⟨hReact, hEnded, handled, hNotices, hExchanged⟩ := h
  exact ⟨hReact, hEnded, handled, by rw [hNotices, List.append_assoc]; rfl, hExchanged⟩

theorem poll (h : Account react notices exchanges told w) (linked : Bool) :
    Account react notices exchanges (told ++ (w.poll linked).2) (w.poll linked).1 := by
  obtain ⟨hReact, hEnded, handled, hNotices, hExchanged⟩ := h
  obtain ⟨hSame, more, hInbox, hMore⟩ := w.exchanged_poll linked
  have hStill : (w.poll linked).1.ended = w.ended := by
    unfold Work.poll
    split <;> rfl
  refine ⟨hSame.trans hReact, hStill.trans hEnded, handled ++ more, ?_, ?_⟩
  · rw [hNotices, hInbox, List.append_assoc]
  · rw [hReact] at hMore
    rw [List.flatMap_append]
    simpa using (hExchanged.append (more.flatMap react)).trans hMore

theorem reply (h : Account react notices exchanges told w) {q : Q} (hAsks : w.question? = some q)
    (r : R) : Account react notices (exchanges ++ [(q, r)]) told (w.reply r) := by
  obtain ⟨hReact, hEnded, handled, hNotices, hExchanged⟩ := h
  obtain ⟨hInbox, hSame, hStill⟩ := w.inbox_reply r
  refine ⟨hSame.trans hReact, hStill.trans hEnded, handled, hInbox ▸ hNotices, ?_⟩
  simpa using hExchanged.trans (exchanged_reply hAsks r)

/-- The readings of all notices that have come, handled or not. -/
theorem exchanged_all (h : Account react notices exchanges told w) :
    Exchanged (notices.flatMap react) exchanges told (w.readings ++ w.inbox.flatMap react) := by
  obtain ⟨-, -, handled, hNotices, hExchanged⟩ := h
  rw [hNotices, List.flatMap_append]
  exact hExchanged.append _

theorem length_le {k : Nat} (h : Account react notices exchanges told w)
    (hNeeds : ∀ n, Needs (react n) k) : exchanges.length ≤ k * notices.length :=
  (h.exchanged_all.needs (.flatMap hNeeds notices)).1

/-- What was asked and told is the beginning of what the notices lead to, one after the other, and
all of it once nothing is left to do. -/
theorem parts [Nonempty R] (h : Account react notices exchanges told w) :
    ∃ parts : List (List (Q × R) × List ε),
      List.Forall₂ (fun n part => Exchanged (react n) part.1 part.2 []) notices parts ∧
      exchanges <+: parts.flatMap Prod.fst ∧ told <+: parts.flatMap Prod.snd ∧
      (w.isIdle = true →
        exchanges = parts.flatMap Prod.fst ∧ told = parts.flatMap Prod.snd) := by
  obtain ⟨later, toldLater, hLater⟩ := exists_exchanged (w.readings ++ w.inbox.flatMap react)
  obtain ⟨parts, hParts, hAsked, hTold⟩ := (h.exchanged_all.trans hLater).parts
  refine ⟨parts, hParts, ⟨later, hAsked⟩, ⟨toldLater, hTold⟩, fun hIdle => ?_⟩
  obtain ⟨hInbox, hReadings⟩ : w.inbox = [] ∧ w.readings = [] := by simpa [isIdle] using hIdle
  rw [hInbox, hReadings] at hLater
  cases hLater
  exact ⟨by rw [← hAsked, List.append_nil], by rw [← hTold, List.append_nil]⟩

end Account

/-! ## Waiting -/

theorem pass_waits (linked : Bool) (readings : List (Program Q R ε)) :
    (pass linked readings).2 = [] ∨
      ∃ q next rest, (pass linked readings).2 = .ask q next :: rest := by
  induction readings with
  | nil => exact .inl rfl
  | cons p rest ih =>
    unfold pass
    obtain ⟨e, hDone⟩ | ⟨e, hFail⟩ | ⟨q, next, hAsks⟩ := p.proceed_cases linked
    · simpa [hDone] using ih
    · simpa [hFail] using ih
    · exact .inr ⟨q, next, rest, by simp [hAsks]⟩

theorem passNotices_waits (react : ν → List (Program Q R ε)) (linked : Bool) (notices : List ν) :
    (passNotices react linked notices).2 = ([], []) ∨
      ∃ q next rest, (passNotices react linked notices).2.2 = .ask q next :: rest := by
  induction notices with
  | nil => exact .inl rfl
  | cons n rest ih =>
    have hFirst := pass_waits linked (react n)
    unfold passNotices
    split
    · exact ih
    · rename_i delivered left hLeft hPass
      rw [hPass] at hFirst
      exact .inr (hFirst.resolve_left hLeft)

/-- After a poll there is nothing left to do, or the work waits for a reply. -/
theorem poll_waits (linked : Bool) (w : Work Q R ν ε) :
    (w.poll linked).1.isIdle = true ∨ ((w.poll linked).1.question?).isSome = true := by
  have hReadings := pass_waits linked w.readings
  unfold poll
  split
  · rcases passNotices_waits w.react linked w.inbox with hNone | ⟨q, next, rest, hAsks⟩
    · exact .inl (by simp [isIdle, hNone])
    · exact .inr (by simp [question?, hAsks])
  · rename_i delivered left hLeft hPass
    rw [hPass] at hReadings
    obtain ⟨q, next, rest, rfl⟩ := hReadings.resolve_left hLeft
    exact .inr rfl

/-! ## Rounds -/

/-- The work after a poll and the reply to the question that it then asks, if it asks one. -/
def round (linked : Bool) (answer : Q → R) (w : Work Q R ν ε) : Work Q R ν ε :=
  match (w.poll linked).1.question? with
  | some q => (w.poll linked).1.reply (answer q)
  | none => (w.poll linked).1

theorem isIdle_round {w : Work Q R ν ε} (h : w.isIdle = true) (linked : Bool) (answer : Q → R) :
    (w.round linked answer).isIdle = true := by
  obtain ⟨hInbox, hReadings⟩ : w.inbox = [] ∧ w.readings = [] := by simpa [isIdle] using h
  simp [round, poll, hReadings, hInbox, pass, passNotices, question?, isIdle]

/-- By a round one more question is answered, unless nothing is left to do. -/
theorem Account.round {react : ν → List (Program Q R ε)} {notices : List ν} {w : Work Q R ν ε}
    (h : Account react notices exchanges told w) (linked : Bool) (answer : Q → R) :
    ∃ exchanges' told', Account react notices exchanges' told' (w.round linked answer) ∧
      ((w.round linked answer).isIdle = true ∨ exchanges'.length = exchanges.length + 1) := by
  unfold Work.round
  cases hAsks : (w.poll linked).1.question? with
  | some q => exact ⟨_, _, (h.poll linked).reply hAsks (answer q), .inr (by simp)⟩
  | none =>
    have hRests := (w.poll_waits linked).resolve_right (by simp [hAsks])
    exact ⟨_, _, h.poll linked, .inl hRests⟩

end ModemLink.Observer.Work
