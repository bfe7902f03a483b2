import ModemLink.Proofs.Program.Courses
import ModemLink.Proofs.Session.Registrations

/-!
# What a client asks of its own accord

Besides what the calls on its handles ask, a client asks a lot by itself: the tracker asks modems
for their identities, resets are under way, and observers read what has changed. If the programs
behind all this ask only questions of some sort, then so does every step of a session, apart from
the call that the step makes.

* `Habits`: the sort of all questions of the programs that a client runs by itself.
* `Client.Asks`: the sort of all questions that are still to come of what is under way.
* `Client.Moved.asks`: a move keeps this.
* `Client.Asks.settle`, `Session.calls_of_call`, `Session.calls_of_other`: all that is asked until
  everything can only wait, and in a step.
-/

namespace ModemLink

/-! ## Programs under way -/

namespace Program

variable {Q R α : Type} {P : Q → Prop} {p : Program Q R α}

theorem Asks.proceed (h : Asks P p) (linked : Bool) : Asks P (p.proceed linked) := by
  induction p with
  | whetherLinked next ih => exact ih linked (h linked)
  | _ => exact h

theorem Asks.attempt (h : Asks P p) : Asks P p.attempt := by
  induction p with
  | done a => trivial
  | fail e => trivial
  | ask q next ih => exact ⟨h.1, fun r => ih r (h.2 r)⟩
  | whetherLinked next ih => exact fun b => ih b (h b)

end Program

namespace Observer.Work

variable {Q R ν ε : Type} {P : Q → Prop} {w : Work Q R ν ε}

/-- All that an observer will ask satisfies `P`. -/
structure Asks (P : Q → Prop) (w : Work Q R ν ε) : Prop where
  react : ∀ n, ∀ p ∈ w.react n, Program.Asks P p
  readings : ∀ p ∈ w.readings, Program.Asks P p

theorem asks_pass {readings : List (Program Q R ε)} (h : ∀ p ∈ readings, Program.Asks P p)
    (linked : Bool) : ∀ p ∈ (pass linked readings).2, Program.Asks P p := by
  induction readings with
  | nil => exact h
  | cons first rest ih =>
    obtain ⟨hFirst, hRest⟩ := List.forall_mem_cons.mp h
    have hGone := hFirst.proceed linked
    rcases first.proceed_cases linked with ⟨e, hP⟩ | ⟨e, hP⟩ | ⟨q, next, hP⟩ <;>
      simp only [pass, hP]
    · exact ih hRest
    · exact ih hRest
    · exact List.forall_mem_cons.mpr ⟨hP ▸ hGone, hRest⟩

theorem asks_passNotices {react : ν → List (Program Q R ε)}
    (h : ∀ n, ∀ p ∈ react n, Program.Asks P p) (linked : Bool) (inbox : List ν) :
    ∀ p ∈ (passNotices react linked inbox).2.2, Program.Asks P p := by
  induction inbox with
  | nil => exact fun _ hNone => absurd hNone List.not_mem_nil
  | cons n rest ih =>
    have hLeft := asks_pass (h n) linked
    unfold passNotices
    split
    · exact ih
    · rename_i hPass
      rwa [hPass] at hLeft

theorem Asks.poll (h : w.Asks P) (linked : Bool) : (w.poll linked).1.Asks P := by
  have hLeft := asks_pass h.readings linked
  unfold Work.poll
  split
  · exact ⟨h.react, asks_passNotices h.react linked w.inbox⟩
  · rename_i hPass
    exact ⟨h.react, by rwa [hPass] at hLeft⟩

theorem Asks.reply (h : w.Asks P) (r : R) : (w.reply r).Asks P := by
  unfold Work.reply
  split
  · rename_i q next rest hReadings
    obtain ⟨hFirst, hRest⟩ := List.forall_mem_cons.mp (hReadings ▸ h.readings)
    exact ⟨h.react, List.forall_mem_cons.mpr ⟨hFirst.2 r, hRest⟩⟩
  · exact h

theorem Asks.notify (h : w.Asks P) (n : ν) : (w.notify n).Asks P := ⟨h.react, h.readings⟩

theorem Asks.question (h : w.Asks P) {q : Q} (hQuestion : w.question? = some q) : P q := by
  unfold question? at hQuestion
  split at hQuestion
  · rename_i hReadings
    obtain rfl := Option.some.inj hQuestion
    exact (List.forall_mem_cons.mp (hReadings ▸ h.readings)).1.1
  · cases hQuestion

end Observer.Work

variable {P : Bus.Query → Prop}

open Program (Asks)
open Observer (Slot)

/-- All questions that a client asks of its own accord satisfy `P`, and so do those of the observers
that calls on its handles prepare. -/
structure Habits (P : Bus.Query → Prop) : Prop where
  start : Asks P Manager.start
  version : Asks P Manager.version
  scanDevices : Asks P Manager.scanDevices
  imei : ∀ path, Asks P (Modem.imei path)
  reset : ∀ path, Asks P (Modem.reset path)
  react : ∀ {s : Session} {h call p owner kind w}, s.callOn? h call = some (p, owner) →
    p.Possible (.ok (.watch kind w)) → ∀ body, ∀ reading ∈ w.react body, Asks P reading

/-! ## The tracker -/

theorem Announcement.asks_identify (h : ∀ path, Asks P (Modem.imei path)) (a : Announcement) :
    Asks P a.identify := by
  unfold identify
  split
  · trivial
  · refine Program.asks_bind (h a.path).attempt fun identity => ?_
    cases identity <;> trivial

namespace Tracker

variable {t : Tracker}

/-- All that the tracker will ask about the modem that it identifies satisfies `P`. -/
def Asks (P : Bus.Query → Prop) (t : Tracker) : Prop :=
  ∀ e ∈ t.identifying, Program.Asks P e.2

theorem identifying_next? (t : Tracker) : t.next?.2.identifying = t.identifying := by
  unfold next? nextAnnouncement? nextRemoval?
  cases t.removalsFirst <;> cases t.announcements <;> cases t.removals <;> rfl

theorem Asks.step (hHabits : Habits P) (h : t.Asks P) (linked : Bool) (fresh : Nat)
    (modems : Modems) : (t.step linked fresh modems).1.Asks P := by
  unfold Tracker.step
  split
  · have hNext : t.next?.2.Asks P := fun e he => h e (t.identifying_next? ▸ he)
    split
    · rename_i hTaken
      rwa [hTaken] at hNext
    · rename_i change rest hTaken
      rw [hTaken] at hNext
      cases change with
      | removed r => exact hNext
      | added a =>
        unfold take
        dsimp only
        split
        · rintro e ⟨⟩
          exact a.asks_identify hHabits.imei
        · exact hNext
  · rename_i path identify hIdentifying
    have hGone := (h _ hIdentifying).proceed linked
    split
    · exact fun e he => absurd he (by simp)
    · exact fun e he => absurd he (by simp)
    · rintro e ⟨⟩
      exact hGone

theorem Asks.reply (h : t.Asks P) (r : Bus.Reply) : (t.reply r).Asks P := by
  unfold Tracker.reply
  split
  · rename_i path q next hIdentifying
    rintro e ⟨⟩
    exact (h _ hIdentifying).2 r
  · exact h

theorem Asks.question (h : t.Asks P) {q : Bus.Query} (hQuestion : t.question? = some q) : P q := by
  unfold question? at hQuestion
  split at hQuestion
  · rename_i hIdentifying
    obtain rfl := Option.some.inj hQuestion
    exact (h _ hIdentifying).1
  · cases hQuestion

end Tracker

/-! ## Resets -/

namespace Reset

variable {r : Reset}

/-- All that the reset will ask in its stage satisfies `P`. -/
def Asks (P : Bus.Query → Prop) : Reset → Prop
  | identifying identity => Program.Asks P identity
  | resetting _ order => Program.Asks P order
  | _ => True

theorem asks_begin (hHabits : Habits P) (modems : Modems) (path : String) :
    (begin modems path).Asks P := by
  unfold begin
  split
  · trivial
  · exact hHabits.imei path

theorem Asks.step (hHabits : Habits P) (h : r.Asks P) (path : String) (linked : Bool)
    (modems : Modems) : (r.step path linked modems).2.Asks P := by
  cases r with
  | identifying identity =>
    have hGone := Program.Asks.proceed h linked
    rcases identity.proceed_cases linked with ⟨text, hP⟩ | ⟨e, hP⟩ | ⟨q, next, hP⟩ <;>
      simp only [Reset.step, hP]
    · unfold onIdentity
      split
      · trivial
      · exact hHabits.reset path
    · trivial
    · exact hP ▸ hGone
  | resetting request order =>
    have hGone := Program.Asks.proceed h linked
    rcases order.proceed_cases linked with ⟨u, hP⟩ | ⟨e, hP⟩ | ⟨q, next, hP⟩ <;>
      simp only [Reset.step, hP]
    · trivial
    · trivial
    · exact hP ▸ hGone
  | waiting request =>
    simp only [Reset.step, onReturn]
    split <;> trivial
  | ended result => trivial

theorem Asks.reply (h : r.Asks P) (reply : Bus.Reply) : (r.reply reply).Asks P := by
  cases r with
  | identifying identity =>
    cases identity with
    | ask q next => exact h.2 reply
    | _ => exact h
  | resetting request order =>
    cases order with
    | ask q next => exact h.2 reply
    | _ => exact h
  | _ => trivial

theorem Asks.expire (h : r.Asks P) (modems : Modems) : (r.expire .outcome modems).2.Asks P := by
  cases r with
  | waiting request =>
    unfold Reset.expire
    dsimp only
    split <;> trivial
  | _ => exact h

theorem Asks.question (h : r.Asks P) {q : Bus.Query} (hQuestion : r.question? = some q) : P q := by
  unfold question? at hQuestion
  split at hQuestion
  · obtain rfl := Option.some.inj hQuestion
    exact h.1
  · obtain rfl := Option.some.inj hQuestion
    exact h.1
  · cases hQuestion

end Reset

theorem RunningReset.Moved.asks (hHabits : Habits P) {linked : Bool} {r r' : RunningReset}
    (h : r.Moved linked r') (hAsks : r.stage.Asks P) : r'.stage.Asks P := by
  cases h with
  | same => exact hAsks
  | turned modems s =>
    have hStep := hAsks.step hHabits r.modem.path linked modems
    unfold Client.turnReset
    dsimp only
    split
    · exact hStep
    · exact hStep.reply _
  | expired modems => exact hAsks.expire modems

/-! ## Scenes -/

namespace Scene

variable {s s' s'' : Scene} {α : Type}

/-- From one scene to another one only questions that satisfy `P` are asked. -/
def Grows (P : Bus.Query → Prop) (s s' : Scene) : Prop :=
  ∃ more, s'.calls = s.calls ++ more ∧ ∀ q ∈ more, P q

namespace Grows

theorem of_eq (h : s'.calls = s.calls) : Grows P s s' := ⟨[], by simp [h], nofun⟩

theorem trans (h : Grows P s s') (h' : Grows P s' s'') : Grows P s s'' := by
  obtain ⟨more, hMore, hAll⟩ := h
  obtain ⟨rest, hRest, hAll'⟩ := h'
  refine ⟨more ++ rest, by rw [hRest, hMore, List.append_assoc], fun q hq => ?_⟩
  exact (List.mem_append.mp hq).elim (hAll q) (hAll' q)

theorem ask {q : Bus.Query} (h : P q) (s : Scene) : Grows P s (s.ask q).2 := by
  by_cases hCall : isCall q
  · exact ⟨[q], by simp [Scene.ask, hCall], by simpa using h⟩
  · exact .of_eq (by simp [Scene.ask, hCall])

end Grows

/-- The calls that a run makes are the last on record. -/
theorem calls_run (p : Request α) (linked : Bool) (s : Scene) :
    (p.run ask linked s).state.calls =
      s.calls ++ ((p.run ask linked s).trace.map Prod.fst).filter isCall := by
  induction p generalizing s with
  | done a => simp [Program.run]
  | fail e => simp [Program.run]
  | ask q next ih =>
    simp only [Program.run, ih, List.map_cons, List.filter_cons]
    by_cases hCall : isCall q <;> simp [Scene.ask, hCall]
  | whetherLinked next ih => exact ih linked s

theorem grows_run {p : Request α} (h : Asks P p) (linked : Bool) (s : Scene) :
    Grows P s (p.run ask linked s).state := by
  refine ⟨_, calls_run p linked s, fun q hq => ?_⟩
  exact (Program.course_run p ask linked s).asks h q (List.mem_filter.mp hq).1

end Scene

/-! ## Turns -/

namespace Client

open Scene (Grows)

variable {c : Client}

/-- All that is still to be asked of what is under way satisfies `P`. -/
structure Asks (P : Bus.Query → Prop) (c : Client) : Prop where
  tracker : c.tracker.Asks P
  resets : ∀ e ∈ c.resets, e.2.stage.Asks P
  board : ∀ e ∈ c.board, ∀ w ∈ e.2.running?, w.work.Asks P

theorem asks_turnSlot {slot : Slot Watcher} (h : ∀ w ∈ slot.running?, w.work.Asks P)
    (linked : Bool) (s : Scene) :
    (∀ w ∈ (turnSlot linked slot s).1.running?, w.work.Asks P) ∧
      Grows P s (turnSlot linked slot s).2 := by
  have hPolled : ∀ w ∈ (slot.poll (Watcher.poll linked) Watcher.isDone).1.running?,
      w.work.Asks P := by
    intro w hAfter
    cases hBefore : slot.running? with
    | none =>
      rw [Slot.poll_of_none _ _ hBefore, hBefore] at hAfter
      cases hAfter
    | some w₀ =>
      obtain rfl := (Slot.poll_of_running? _ _ hBefore).1 w hAfter
      exact (h w₀ hBefore).poll linked
  unfold turnSlot
  dsimp only
  split
  · exact ⟨hPolled, .of_eq rfl⟩
  · rename_i q hQuestion
    obtain ⟨w, hRuns, hAsked⟩ := Option.bind_eq_some_iff.mp hQuestion
    have hPermitted : P q := (hPolled w hRuns).question hAsked
    refine ⟨fun w' hAfter => ?_, (Grows.of_eq rfl).trans (.ask hPermitted _)⟩
    rw [Option.mem_def, Slot.running?_update] at hAfter
    obtain ⟨replied, hReplied, rfl⟩ := Option.map_eq_some_iff.mp hAfter
    exact (hPolled replied hReplied).reply _

theorem asks_turnBoard {b : Board} (h : ∀ e ∈ b, ∀ w ∈ e.2.running?, w.work.Asks P)
    (linked : Bool) (s : Scene) :
    (∀ e ∈ (turnBoard linked b s).1 ++ (turnBoard linked b s).2.1,
        ∀ w ∈ e.2.running?, w.work.Asks P) ∧
      Grows P s (turnBoard linked b s).2.2 := by
  constructor
  · intro e hMem
    obtain ⟨slot, s', hOld, hTurned⟩ := mem_turnBoard hMem
    rw [hTurned]
    exact (asks_turnSlot (h _ hOld) linked s').1
  · induction b generalizing s with
    | nil => exact .of_eq rfl
    | cons first rest ih =>
      obtain ⟨hFirst, hRest⟩ := List.forall_mem_cons.mp h
      have hGrown := (asks_turnSlot hFirst linked s).2.trans
        (ih hRest (turnSlot linked first.2 s).2)
      simp only [turnBoard]
      split <;> exact hGrown

theorem grows_turnResets (hHabits : Habits P) {resets : List (Nat × RunningReset)}
    (h : ∀ e ∈ resets, e.2.stage.Asks P) (linked : Bool) (modems : Modems) (s : Scene) :
    Grows P s (turnResets linked resets modems s).2.2 := by
  induction resets generalizing modems s with
  | nil => exact .of_eq rfl
  | cons first rest ih =>
    obtain ⟨hFirst, hRest⟩ := List.forall_mem_cons.mp h
    have hTurned : Grows P s (turnReset linked first.2 modems s).2.2 := by
      have hStep := hFirst.step hHabits first.2.modem.path linked modems
      unfold turnReset
      dsimp only
      split
      · exact .of_eq rfl
      · rename_i hQuestion
        exact .ask (hStep.question hQuestion) _
    exact hTurned.trans (ih hRest _ _)

theorem asks_turnTracker (hHabits : Habits P) (h : c.Asks P) (s : Scene) :
    (c.turnTracker s).1.Asks P ∧ Grows P s (c.turnTracker s).2 := by
  have hStep := h.tracker.step hHabits c.isLinked c.fresh c.modems
  unfold turnTracker
  dsimp only
  split
  · exact ⟨⟨hStep, h.resets, h.board⟩, .of_eq rfl⟩
  · rename_i hQuestion
    exact ⟨⟨hStep.reply _, h.resets, h.board⟩, .ask (hStep.question hQuestion) _⟩

theorem Asks.unlink (h : c.Asks P) : c.unlink.Asks P := by
  unfold Client.unlink
  split
  · exact h
  · refine ⟨nofun, h.resets, fun e hMem w hRuns => ?_⟩
    obtain ⟨e, -, rfl⟩ := List.mem_map.mp hMem
    rw [Option.mem_def, Slot.running?_finish] at hRuns
    cases hRuns

/-- A move keeps what is still to be asked. -/
theorem Moved.asks (hHabits : Habits P) {x y : Client × Scene}
    (h : Moved (fun _ w => w.work.Asks P) x y) (hBefore : x.1.Asks P) : y.1.Asks P := by
  have hResets : ∀ e ∈ y.1.resets, e.2.stage.Asks P := by
    intro e hMem
    rcases h.reset hMem with ⟨r, hOld, hMoved⟩ | ⟨-, m, hBegun⟩
    · exact hMoved.asks hHabits (hBefore.resets _ hOld)
    · rw [hBegun]
      exact Reset.asks_begin hHabits _ _
  cases h with
  | noticed c s change =>
    refine ⟨?_, hResets, hBefore.board⟩
    cases change <;> exact hBefore.tracker
  | delivered c s path interface member arguments =>
    refine ⟨hBefore.tracker, hResets, fun e hMem w hRuns => ?_⟩
    obtain ⟨e, hOld, rfl⟩ := List.mem_map.mp hMem
    rw [Option.mem_def, Slot.running?_update] at hRuns
    obtain ⟨heard, hHeard, rfl⟩ := Option.map_eq_some_iff.mp hRuns
    have hAsks := hBefore.board e hOld heard hHeard
    unfold Watcher.hear
    split
    · exact hAsks.notify _
    · exact hAsks
  | turnedTracker c s => exact (asks_turnTracker hHabits hBefore s).1
  | turnedObservers c s =>
    exact ⟨hBefore.tracker, hResets, (asks_turnBoard hBefore.board c.isLinked s).1⟩
  | turnedResets c s => exact ⟨hBefore.tracker, hResets, hBefore.board⟩
  | unlinked c s => exact hBefore.unlink
  | expired c s ended =>
    rw [expire_eq] at hResets ⊢
    rw [resets_unlink] at hResets
    exact Asks.unlink ⟨hBefore.tracker, hResets, hBefore.board⟩
  | @registered c s key w hAsks =>
    refine ⟨hBefore.tracker, hResets, fun e hMem w' hRuns => ?_⟩
    rcases List.mem_append.mp hMem with hOld | hNew
    · exact hBefore.board e (List.mem_filter.mp hOld).1 w' hRuns
    · obtain rfl := List.mem_singleton.mp hNew
      rw [Option.mem_def, Slot.running?_register] at hRuns
      exact Option.some.inj hRuns ▸ hAsks
  | kept c s owned =>
    refine ⟨hBefore.tracker, hResets, fun e hMem w hRuns => ?_⟩
    obtain ⟨e, hOld, rfl⟩ := List.mem_map.mp hMem
    split at hRuns
    · exact hBefore.board e hOld w hRuns
    · rw [Option.mem_def, Slot.running?_abandon] at hRuns
      cases hRuns
  | _ => exact ⟨hBefore.tracker, hResets, hBefore.board⟩

theorem asks_round (hHabits : Habits P) (h : c.Asks P) (s : Scene) :
    (c.round s).1.Asks P ∧ Grows P s (c.round s).2 := by
  rw [round_eq]
  let tracked := c.turnTracker s
  let observed := tracked.1.turnObservers tracked.2
  let reset := observed.1.turnAllResets observed.2
  obtain ⟨hTracked, hFirst⟩ : tracked.1.Asks P ∧ Grows P s tracked.2 :=
    asks_turnTracker hHabits h s
  have hObserved : observed.1.Asks P := Moved.asks hHabits (.turnedObservers _ _) hTracked
  have hSecond : Grows P tracked.2 observed.2 := (asks_turnBoard hTracked.board _ _).2
  have hReset : reset.1.Asks P := Moved.asks hHabits (.turnedResets _ _) hObserved
  have hThird : Grows P observed.2 reset.2 := grows_turnResets hHabits hObserved.resets _ _ _
  exact ⟨hReset.unlink, (hFirst.trans hSecond).trans hThird⟩

theorem Asks.settle (hHabits : Habits P) (h : c.Asks P) (s : Scene) :
    (c.settle s).1.Asks P ∧ Grows P s (c.settle s).2 := by
  have hRounds : ∀ limit {c : Client} {s : Scene}, c.Asks P →
      (rounds limit c s).1.Asks P ∧ Grows P s (rounds limit c s).2 := by
    intro limit
    induction limit with
    | zero => exact fun h => ⟨h, .of_eq rfl⟩
    | succ limit ih =>
      intro c s h
      unfold rounds
      split
      · exact ⟨h, .of_eq rfl⟩
      · obtain ⟨hRound, hGrown⟩ := asks_round hHabits h s
        obtain ⟨hLast, hRest⟩ := ih (s := (c.round s).2) hRound
        exact ⟨hLast, hGrown.trans hRest⟩
  exact hRounds _ h.unlink

end Client

/-! ## Sessions -/

namespace Session

open Scene (Grows)

variable {s : Session}

@[simp] theorem scene_release (s : Session) (h : Held) : (s.release h).scene = s.scene := by
  cases h <;> rfl

@[simp] theorem scene_forget (s : Session) (name : String) : (s.forget name).scene = s.scene := by
  unfold forget
  split
  · rfl
  · exact scene_release _ _

@[simp] theorem scene_keep (s : Session) (name : Option String) (h : Held) :
    (s.keep name h).scene = s.scene := by
  cases name with
  | none => exact s.scene_release h
  | some name => exact s.scene_forget name

@[simp] theorem scene_keepBearers (s : Session) (name : Option String) (place : Nat)
    (paths : List String) : (s.keepBearers name place paths).scene = s.scene := by
  induction paths generalizing s place with
  | nil => rfl
  | cons path rest ih => exact (ih _ _).trans (s.scene_keep _ _)

@[simp] theorem scene_giveModem (s : Session) (name : Option String) (m : Option (Tracked Nat)) :
    (s.giveModem name m).1.scene = s.scene := by
  cases m with
  | none => rfl
  | some m => exact s.scene_keep _ _

@[simp] theorem scene_giveOutcome (s : Session) (name : Option String)
    (r : Except Error (Tracked Nat)) : (s.giveOutcome name r).1.scene = s.scene := by
  cases r with
  | ok m => exact s.scene_giveModem name _
  | error e => rfl

theorem scene_receive (s : Session) (owner : Nat) (tag : String) (name : Option String)
    (r : Call.Result) : (s.receive owner tag name r).1.scene = s.scene := by
  unfold receive
  split
  · exact s.scene_keep _ _
  · exact s.scene_keep _ _
  · exact s.scene_keepBearers _ _ _
  · rfl
  · rfl

theorem scene_give {α : Type} (f : α → Answer) (r : Session × Except Error α) :
    (give f r).1.scene = r.1.scene := by
  obtain ⟨s, x⟩ := r
  cases x <;> rfl

theorem scene_send (s : Session) (path interface member : String) (body : List Bus.Value) :
    (s.send path interface member body).scene = s.scene := by
  unfold send
  dsimp only
  split <;> rfl

theorem calls_announce (s : Session) (f : Bus.World → Bus.World) (member path : String)
    (content : Bus.Value) :
    ((s.changeWorld f).announce member path content).scene.calls = s.scene.calls := by
  rw [announce, scene_send]
  rfl

/-- The bus after a call is the bus after what the call asks. -/
theorem scene_call {target : String} {call : Call} {p : Request Call.Result} {owner : Nat}
    (hCall : (s.held? target).bind (fun h => s.callOn? h call) = some (p, owner)) (tag : String)
    (name : Option String) : (s.call target tag name call).1.scene =
      (p.run Scene.ask s.client.isLinked s.scene).state := by
  simp only [Session.call, hCall, request]
  cases (p.run Scene.ask s.client.isLinked s.scene).result with
  | error e => rfl
  | ok r => exact scene_receive _ _ _ _ _

theorem leads_call_asks (hHabits : Habits P) (s : Session) (target tag : String)
    (name : Option String) (call : Call) :
    Leads (fun _ w => w.work.Asks P) s (s.call target tag name call).1 := by
  unfold Session.call
  split
  · exact .refl s
  · rename_i p owner hCall
    obtain ⟨h, -, hOn⟩ := Option.bind_eq_some_iff.mp hCall
    have hRequest : Leads (fun _ w => w.work.Asks P) s (s.request p).1 := s.leads_request p
    cases hResult : s.request p with
    | mk s' r =>
      rw [hResult] at hRequest
      cases r with
      | error e => exact hRequest
      | ok r =>
        have hEnd : p.Possible (.ok r) := by
          have hRun := Program.possible_run p Scene.ask s.client.isLinked s.scene
          rwa [show (p.run Scene.ask s.client.isLinked s.scene).result = .ok r from
            congrArg Prod.snd hResult] at hRun
        refine hRequest.trans (s'.leads_receive owner tag name r fun kind w hWatch => ?_)
        exact ⟨hHabits.react hOn (hWatch ▸ hEnd), nofun⟩

theorem leads_step_asks (hHabits : Habits P) (s : Session) (step : Step) :
    Leads (fun _ w => w.work.Asks P) s (s.step step).1 := by
  have hFresh : Leads (fun _ w => w.work.Asks P) s { s with scene := s.scene.fresh } :=
    .of_eq rfl (List.nil_subset _)
  refine hFresh.trans ((leads_act_of fun target tag name call _ => ?_).trans (leads_settle _))
  exact leads_call_asks hHabits _ _ _ _ _

theorem asks_after (hHabits : Habits P) (h : s.client.Asks P) (steps : List Step) :
    (s.after steps).client.Asks P := by
  induction steps generalizing s with
  | nil => exact h
  | cons step rest ih =>
    exact ih ((leads_step_asks hHabits s step).keeps (I := fun x => x.1.Asks P)
      (fun _ _ hMoved => hMoved.asks hHabits) h)

theorem asks_opened (P : Bus.Query → Prop) (config : Config) (modems : List (String × String))
    (scene : Scene) : (opened config modems scene).client.Asks P :=
  ⟨nofun, nofun, nofun⟩

theorem grows_settle (hHabits : Habits P) (h : s.client.Asks P) :
    Grows P s.scene s.settle.scene := by
  have hScene : s.settle.scene = (s.client.settle s.scene).2 := by
    unfold settle
    dsimp only
  exact hScene ▸ (h.settle hHabits s.scene).2

theorem grows_useManager (hHabits : Habits P) (h : s.client.Asks P)
    (hManaged : s.client.managers ≠ 0) (step : Step) :
    Grows P s.scene (s.useManager step).1.scene := by
  cases step with
  | version =>
    exact scene_give .text _ ▸ Scene.grows_run hHabits.version s.client.isLinked s.scene
  | scanDevices =>
    exact scene_give (fun _ => .nothing) _ ▸
      Scene.grows_run hHabits.scanDevices s.client.isLinked s.scene
  | anyModem name => exact .of_eq (congrArg Scene.calls (s.scene_giveModem name _))
  | modemAt index name => exact .of_eq (congrArg Scene.calls (s.scene_giveModem name _))
  | awaitModem filter name => exact .of_eq (congrArg Scene.calls (scene_keep _ _ _))
  | resetModem target background name =>
    unfold useManager resetModem
    dsimp only
    split
    · exact .of_eq rfl
    · rename_i m _
      split
      · exact .of_eq (congrArg Scene.calls (scene_keep _ _ _))
      · have hBegun : (s.client.beginReset m).1.Asks P :=
          Client.Moved.asks (x := (s.client, s.scene)) (y := ((s.client.beginReset m).1, s.scene))
            hHabits (.began _ _ hManaged) h
        rw [scene_giveOutcome, resetNow_eq]
        exact (hBegun.settle hHabits s.scene).2
  | _ => exact .of_eq rfl

/-- Apart from its call, a step asks only what the client asks of its own accord. -/
theorem grows_act (hHabits : Habits P) (h : s.client.Asks P) {step : Step}
    (hCall : ∀ target tag name call, step ≠ .call target tag name call) :
    Grows P s.scene (s.act step).1.scene := by
  have hManager : Grows P s.scene
      (if s.client.managers = 0 then (s, Answer.noManager) else s.useManager step).1.scene := by
    split
    · exact .of_eq rfl
    · rename_i hManaged
      exact grows_useManager hHabits h hManaged step
  cases step with
  | added path interfaces => exact .of_eq (calls_announce _ _ _ _ _)
  | removed path interfaces => exact .of_eq (calls_announce _ _ _ _ _)
  | emit path interface member body => exact .of_eq (congrArg Scene.calls (scene_send _ _ _ _ _))
  | cloneManager =>
    simp only [act]
    split <;> exact .of_eq rfl
  | poll target name =>
    simp only [act, poll]
    split
    · exact .of_eq rfl
    · exact .of_eq rfl
    · exact .of_eq (congrArg Scene.calls ((scene_giveOutcome _ _ _).trans (scene_forget _ _)))
  | drop target => exact .of_eq (congrArg Scene.calls (scene_forget _ _))
  | path target =>
    simp only [act]
    split <;> exact .of_eq rfl
  | clone target name =>
    simp only [act]
    split
    · exact .of_eq (congrArg Scene.calls (scene_keep _ _ _))
    · exact .of_eq rfl
  | call target tag name call => exact absurd rfl (hCall target tag name call)
  | set _ _ _ _ | script _ _ _ | services _ _ | dropManager => exact .of_eq rfl
  | _ => exact hManager

theorem asks_act (hHabits : Habits P) (h : s.client.Asks P) (step : Step) :
    (s.act step).1.client.Asks P :=
  (leads_act_of fun target tag name call _ => leads_call_asks hHabits s target tag name call).keeps
    (I := fun x => x.1.Asks P) (fun _ _ hMoved => hMoved.asks hHabits) h

/-- A step asks something on its own, and then what the client asks of its own accord. -/
theorem exists_calls_step (hHabits : Habits P) (h : s.client.Asks P) (step : Step) :
    ∃ more, (s.step step).2.calls =
        (({ s with scene := s.scene.fresh } : Session).act step).1.scene.calls ++ more ∧
      ∀ q ∈ more, P q := by
  let started : Session := { s with scene := s.scene.fresh }
  have hStarted : started.client.Asks P := h
  have hStep : (s.step step).2.calls = (started.act step).1.settle.scene.calls := by
    unfold Session.step
    dsimp only
  obtain ⟨more, hMore, hAll⟩ := grows_settle hHabits (asks_act hHabits hStarted step)
  exact ⟨more, hStep.trans hMore, hAll⟩

/-- A step that makes no call on a handle asks only what the client asks of its own accord. -/
theorem calls_of_other (hHabits : Habits P) (h : s.client.Asks P) {step : Step}
    (hCall : ∀ target tag name call, step ≠ .call target tag name call) :
    ∀ q ∈ (s.step step).2.calls, P q := by
  let started : Session := { s with scene := s.scene.fresh }
  have hStarted : started.client.Asks P := h
  obtain ⟨own, hOwn, hOwnAll⟩ := grows_act hHabits hStarted hCall
  obtain ⟨more, hCalls, hAll⟩ := exists_calls_step hHabits h step
  rw [hCalls, hOwn]
  exact fun q hq => (List.mem_append.mp hq).elim (hOwnAll q) (hAll q)

/-- Nor does a call ask anything else that no handle takes. -/
theorem calls_of_none (hHabits : Habits P) (h : s.client.Asks P) {target : String} {call : Call}
    (hCall : (s.held? target).bind (fun h => s.callOn? h call) = none) (tag : String)
    (name : Option String) : ∀ q ∈ (s.step (.call target tag name call)).2.calls, P q := by
  let started : Session := { s with scene := s.scene.fresh }
  have hNone : (started.held? target).bind (fun h => started.callOn? h call) = none := hCall
  have hAct : (started.act (.call target tag name call)).1 = started := by
    simp only [act, Session.call, hNone]
  obtain ⟨more, hCalls, hAll⟩ := exists_calls_step hHabits h (.call target tag name call)
  rw [hCalls, hAct]
  exact hAll

/-- A step that makes a call asks first what the call asks. -/
theorem calls_of_call (hHabits : Habits P) (h : s.client.Asks P) {target : String} {call : Call}
    {p : Request Call.Result} {owner : Nat}
    (hCall : (s.held? target).bind (fun h => s.callOn? h call) = some (p, owner)) (tag : String)
    (name : Option String) :
    ∃ more, (s.step (.call target tag name call)).2.calls =
        ((p.run Scene.ask s.client.isLinked s.scene.fresh).trace.map Prod.fst).filter
          Scene.isCall ++ more ∧ ∀ q ∈ more, P q := by
  let started : Session := { s with scene := s.scene.fresh }
  have hTaken : (started.held? target).bind (fun h => started.callOn? h call) = some (p, owner) :=
    hCall
  have hAct : started.act (.call target tag name call) = started.call target tag name call := rfl
  obtain ⟨more, hCalls, hAll⟩ := exists_calls_step hHabits h (.call target tag name call)
  refine ⟨more, ?_, hAll⟩
  rw [hCalls, hAct, scene_call hTaken tag name, Scene.calls_run]
  rfl

end Session

end ModemLink
