import Mathlib.Logic.Relation
import ModemLink.Proofs.Program.Ends
import ModemLink.Session.Run

/-!
# What can happen in a session

A step of a session does many things to its client, one after the other. Each of them is one of a
few moves, so that what every move keeps is kept by every step and by every session.

* `Client.Moved`: the moves.
* `Client.Moved.reset`: what a move can do to a reset.
* `Session.Leads`: any number of moves, whatever is kept under names.
* `Session.leads_step`: a step is made of moves, and the only registrations among them are those
  that the step asks for.
* `Session.after`: the session after some steps.
* `Session.run_eq`, `Session.entry_cases`: runs are made of such sessions.
-/

namespace ModemLink

namespace Client

/-- The client after the turns of all observers. -/
def turnObservers (c : Client) (s : Scene) : Client × Scene :=
  let turned := turnBoard c.isLinked c.board s
  ({ c with board := turned.1 ++ turned.2.1 }, turned.2.2)

/-- The client after the turns of all resets. -/
def turnAllResets (c : Client) (s : Scene) : Client × Scene :=
  let turned := turnResets c.isLinked c.resets c.modems s
  ({ c with resets := turned.1, modems := turned.2.1 }, turned.2.2)

/-- A client on a bus, before and after a move. Observers are registered only as `may` allows. -/
inductive Moved (may : SlotKey → Watcher → Prop) : Client × Scene → Client × Scene → Prop
  /-- The bus is asked or changed, or the record of it is begun anew. -/
  | seen (c : Client) {s s' : Scene} (h : s'.events ⊆ s.events) : Moved may (c, s) (c, s')
  | noticed (c : Client) (s : Scene) (change : ObjectChange) :
      Moved may (c, s) ({ c with tracker := c.tracker.notify change }, s)
  | delivered (c : Client) (s : Scene) (path interface member : String)
      (arguments : List Bus.Value) :
      Moved may (c, s) ({ c with board := c.board.deliver path interface member arguments }, s)
  | cloned {c : Client} (s : Scene) (h : c.managers ≠ 0) :
      Moved may (c, s) ({ c with managers := c.managers + 1 }, s)
  | dropped (c : Client) (s : Scene) :
      Moved may (c, s) ({ c with managers := c.managers - 1 }, s)
  | turnedTracker (c : Client) (s : Scene) : Moved may (c, s) (c.turnTracker s)
  | turnedObservers (c : Client) (s : Scene) : Moved may (c, s) (c.turnObservers s)
  | turnedResets (c : Client) (s : Scene) : Moved may (c, s) (c.turnAllResets s)
  | unlinked (c : Client) (s : Scene) : Moved may (c, s) (c.unlink, s)
  | expired (c : Client) (s : Scene) (ended : Nat → Bool) : Moved may (c, s) (c.expire ended, s)
  | registered (c : Client) (s : Scene) {key : SlotKey} {w : Watcher} (h : may key w) :
      Moved may (c, s) ({ c with board := c.board.register key w }, s)
  | kept (c : Client) (s : Scene) (owned : Nat → Bool) :
      Moved may (c, s) ({ c with board := c.board.keep owned }, s)
  | requested {c : Client} (s : Scene) (filter : ModemFilter) (h : c.managers ≠ 0) :
      Moved may (c, s) ({ c with modems := (c.modems.await filter).1 }, s)
  | abandoned (c : Client) (s : Scene) (id : Registry.RequestId) :
      Moved may (c, s) ({ c with modems := c.modems.abandon id }, s)
  | began {c : Client} (s : Scene) (m : Tracked Nat) (h : c.managers ≠ 0) :
      Moved may (c, s) ((c.beginReset m).1, s)
  | ended (c : Client) (s : Scene) (id : Nat) : Moved may (c, s) (c.endReset id, s)
  /-- A number is given to a handle. -/
  | numbered (c : Client) (s : Scene) : Moved may (c, s) ({ c with fresh := c.fresh + 1 }, s)

end Client

open Client (Moved)

/-! ## Results of calls -/

/-- The kind of the observers that a call registers. -/
def Call.watchKind? : Call → Option WatchKind
  | observeState => some .state
  | observeSignal _ => some .signal
  | observeLocation => some .location
  | observeTraffic _ => some .traffic
  | _ => none

/-- The kind of the observer that a result describes. -/
def Call.Result.kind? : Result → Option WatchKind
  | watch kind _ => some kind
  | _ => none

namespace Call

variable {call : Call} {path : String} {p : Request Result} {r : Result}

theorem kind?_onModem {config : Config} (h : call.onModem? config path = some p)
    (hEnd : p.Possible (.ok r)) : r.kind? = call.watchKind? := by
  cases call <;> cases h <;> obtain ⟨a, rfl⟩ := Program.exists_of_possible_map hEnd <;> rfl

theorem kind?_onSim (h : call.onSim? path = some p) (hEnd : p.Possible (.ok r)) :
    r.kind? = call.watchKind? := by
  cases call <;> cases h <;> obtain ⟨a, rfl⟩ := Program.exists_of_possible_map hEnd <;> rfl

theorem kind?_onBearer (h : call.onBearer? path = some p) (hEnd : p.Possible (.ok r)) :
    r.kind? = call.watchKind? := by
  cases call <;> cases h <;> obtain ⟨a, rfl⟩ := Program.exists_of_possible_map hEnd <;> rfl

end Call

/-! ## Resets -/

/-- A reset before and after a move. -/
inductive RunningReset.Moved (linked : Bool) (r : RunningReset) : RunningReset → Prop
  | same : Moved linked r r
  | turned (modems : Modems) (s : Scene) : Moved linked r (Client.turnReset linked r modems s).1
  | expired (modems : Modems) :
      Moved linked r { r with stage := (r.stage.expire .outcome modems).2 }

namespace Client

variable {may : SlotKey → Watcher → Prop} {linked : Bool}

theorem mem_turnResets {resets : List (Nat × RunningReset)} {modems : Modems} {s : Scene}
    {e : Nat × RunningReset} (h : e ∈ (turnResets linked resets modems s).1) :
    ∃ r, (e.1, r) ∈ resets ∧ r.Moved linked e.2 := by
  induction resets generalizing modems s with
  | nil => cases h
  | cons first rest ih =>
    rcases List.mem_cons.mp h with rfl | hRest
    · exact ⟨first.2, List.mem_cons_self, .turned modems s⟩
    · obtain ⟨r, hMem, hMoved⟩ := ih hRest
      exact ⟨r, List.mem_cons_of_mem _ hMem, hMoved⟩

/-- One reset more, which is ended if it waits and its time is over. -/
def expireOne (ended : Nat → Bool) (before : Modems × List (Nat × RunningReset))
    (e : Nat × RunningReset) : Modems × List (Nat × RunningReset) :=
  if ended e.1 then
    let (modems, stage) := e.2.stage.expire .outcome before.1
    (modems, before.2 ++ [(e.1, { e.2 with stage })])
  else (before.1, before.2 ++ [(e.1, e.2)])

theorem expire_eq (ended : Nat → Bool) (c : Client) :
    c.expire ended =
      let done := c.resets.foldl (expireOne ended) (c.modems, [])
      ({ c with modems := done.1, resets := done.2 } : Client).unlink := rfl

theorem mem_expireAll {ended : Nat → Bool} {resets done : List (Nat × RunningReset)}
    {modems : Modems} {e : Nat × RunningReset}
    (h : e ∈ (resets.foldl (expireOne ended) (modems, done)).2) :
    e ∈ done ∨ ∃ r, (e.1, r) ∈ resets ∧ r.Moved linked e.2 := by
  induction resets generalizing modems done with
  | nil => exact .inl h
  | cons first rest ih =>
    have hFirst : ∃ modems' r', expireOne ended (modems, done) first =
        (modems', done ++ [(first.1, r')]) ∧ first.2.Moved linked r' := by
      unfold expireOne
      split
      · exact ⟨_, _, rfl, .expired modems⟩
      · exact ⟨_, _, rfl, .same⟩
    obtain ⟨modems', r', hEq, hMoved⟩ := hFirst
    rw [List.foldl_cons, hEq] at h
    rcases ih h with hDone | ⟨r, hMem, hRest⟩
    · rcases List.mem_append.mp hDone with hDone | hNew
      · exact .inl hDone
      · obtain rfl := List.mem_singleton.mp hNew
        exact .inr ⟨first.2, List.mem_cons_self, hMoved⟩
    · exact .inr ⟨r, List.mem_cons_of_mem _ hMem, hRest⟩

/-- The turn of the tracker is a step of it, with the reply to its question if it has one. -/
theorem turnTracker_eq (c : Client) (s : Scene) : ∃ tracker scene, scene.events = s.events ∧
    c.turnTracker s = ({ c with
      tracker, modems := (c.tracker.step c.isLinked c.fresh c.modems).2,
      fresh := c.fresh + 1 }, scene) := by
  let tracker := (c.tracker.step c.isLinked c.fresh c.modems).1
  unfold turnTracker
  dsimp only
  cases tracker.question? with
  | none => exact ⟨tracker, s, rfl, rfl⟩
  | some q => exact ⟨tracker.reply (s.ask q).1, (s.ask q).2, rfl, rfl⟩

@[simp] theorem resets_unlink (c : Client) : c.unlink.resets = c.resets := by
  unfold unlink
  split <;> rfl

@[simp] theorem managers_unlink (c : Client) : c.unlink.managers = c.managers := by
  unfold unlink
  split <;> rfl

@[simp] theorem fresh_unlink (c : Client) : c.unlink.fresh = c.fresh := by
  unfold unlink
  split <;> rfl

@[simp] theorem isLinked_unlink (c : Client) : c.unlink.isLinked = c.isLinked := by
  rw [isLinked, managers_unlink, resets_unlink, isLinked]

/-- A reset is what it was, has had a turn, has run out of time, or has just begun. -/
theorem Moved.reset {x y : Client × Scene} (h : Moved may x y) {e : Nat × RunningReset}
    (hMem : e ∈ y.1.resets) :
    (∃ r, (e.1, r) ∈ x.1.resets ∧ r.Moved x.1.isLinked e.2) ∨
      x.1.managers ≠ 0 ∧ ∃ m, e.2 = ⟨m, .begin x.1.modems m.path⟩ := by
  have hSame : ∀ {resets}, e ∈ resets → x.1.resets = resets →
      ∃ r, (e.1, r) ∈ x.1.resets ∧ r.Moved x.1.isLinked e.2 := by
    rintro _ hMem rfl
    exact ⟨e.2, hMem, .same⟩
  cases h with
  | turnedTracker c s =>
    obtain ⟨tracker, scene, -, hTurn⟩ := c.turnTracker_eq s
    rw [hTurn] at hMem
    exact .inl (hSame hMem rfl)
  | turnedResets c s => exact .inl (mem_turnResets hMem)
  | unlinked c s => exact .inl (hSame hMem c.resets_unlink.symm)
  | expired c s ended =>
    rw [expire_eq, resets_unlink] at hMem
    rcases mem_expireAll hMem with hNone | hMoved
    · cases hNone
    · exact .inl hMoved
  | began s m hManaged =>
    rcases List.mem_append.mp hMem with hOld | hNew
    · exact .inl (hSame hOld rfl)
    · obtain rfl := List.mem_singleton.mp hNew
      exact .inr ⟨hManaged, m, rfl⟩
  | ended c s id => exact .inl ⟨e.2, (List.mem_filter.mp hMem).1, .same⟩
  | _ => exact .inl (hSame hMem rfl)

theorem Moved.managers {x y : Client × Scene} (h : Moved may x y) (hNone : x.1.managers = 0) :
    y.1.managers = 0 := by
  cases h with
  | cloned s hManaged => exact absurd hNone hManaged
  | dropped c s => exact Nat.sub_eq_zero_of_le (hNone ▸ Nat.zero_le 1)
  | turnedTracker c s =>
    obtain ⟨tracker, scene, -, hTurn⟩ := c.turnTracker_eq s
    rwa [hTurn]
  | unlinked c s => rwa [managers_unlink]
  | expired c s ended => rwa [expire_eq, managers_unlink]
  | _ => exact hNone

theorem Moved.config {x y : Client × Scene} (h : Moved may x y) : y.1.config = x.1.config := by
  have hUnlink (c : Client) : c.unlink.config = c.config := by
    unfold unlink
    split <;> rfl
  cases h with
  | turnedTracker c s =>
    obtain ⟨tracker, scene, -, hTurn⟩ := c.turnTracker_eq s
    rw [hTurn]
  | unlinked c s => exact hUnlink c
  | expired c s ended => exact hUnlink _
  | _ => rfl

end Client

/-! ## Scenes -/

namespace Scene

@[simp] theorem events_ask (s : Scene) (q : Bus.Query) : (s.ask q).2.events = s.events := rfl

theorem events_run {α : Type} (p : Request α) (linked : Bool) (s : Scene) :
    (p.run ask linked s).state.events = s.events := by
  induction p generalizing s with
  | done a => rfl
  | fail e => rfl
  | ask q next ih => exact (ih _ _).trans (s.events_ask q)
  | whetherLinked next ih => exact ih linked s

end Scene

namespace Session

variable {may : SlotKey → Watcher → Prop} {s s' s'' : Session}

/-- The client and the bus of one session become those of another one by moves. -/
def Leads (may : SlotKey → Watcher → Prop) (s s' : Session) : Prop :=
  Relation.ReflTransGen (Moved may) (s.client, s.scene) (s'.client, s'.scene)

namespace Leads

theorem refl (s : Session) : Leads may s s := Relation.ReflTransGen.refl

theorem trans (h : Leads may s s') (h' : Leads may s' s'') : Leads may s s'' :=
  Relation.ReflTransGen.trans h h'

theorem of_move {client : Client} {scene : Scene}
    (h : Moved may (s.client, s.scene) (client, scene)) (held : List (String × Held)) :
    Leads may s ⟨client, scene, held⟩ :=
  Relation.ReflTransGen.single h

theorem of_eq (hClient : s'.client = s.client) (hScene : s'.scene.events ⊆ s.scene.events) :
    Leads may s s' :=
  Relation.ReflTransGen.single (hClient.symm ▸ .seen s.client hScene)

/-- What every move keeps is kept by any number of them. -/
theorem keeps {I : Client × Scene → Prop} (h : Leads may s s')
    (hMove : ∀ x y, Moved may x y → I x → I y) (hBefore : I (s.client, s.scene)) :
    I (s'.client, s'.scene) := by
  have hChain : ∀ {y : Client × Scene},
      Relation.ReflTransGen (Moved may) (s.client, s.scene) y → I y := by
    intro y hChain
    induction hChain with
    | refl => exact hBefore
    | tail _ hLast ih => exact hMove _ _ hLast ih
  exact hChain h

end Leads

/-! ## Names -/

theorem leads_release (s : Session) (h : Held) : Leads may s (s.release h) := by
  cases h with
  | request id => exact .of_move (.abandoned s.client s.scene id) _
  | _ => exact .refl s

theorem leads_forget (s : Session) (name : String) : Leads may s (s.forget name) := by
  unfold forget
  split
  · exact .refl s
  · exact leads_release { s with held := s.held.filter fun e => e.1 != name } _

theorem leads_keep (s : Session) (name : Option String) (h : Held) :
    Leads may s (s.keep name h) := by
  cases name with
  | none => exact s.leads_release h
  | some name => exact s.leads_forget name

theorem leads_keepModem (s : Session) (name : Option String) (m : Option (Tracked Nat)) :
    Leads may s (s.keepModem name m) := by
  cases m with
  | none => exact .refl s
  | some m => exact s.leads_keep name _

theorem leads_keepBearer (s : Session) (name : Option String) (path : String) :
    Leads may s (s.keepBearer name path) :=
  (s.leads_keep name _).trans (.of_move (.numbered _ _) _)

theorem leads_keepBearers (s : Session) (name : Option String) (place : Nat)
    (paths : List String) : Leads may s (s.keepBearers name place paths) := by
  induction paths generalizing s place with
  | nil => exact .refl s
  | cons path rest ih => exact (s.leads_keepBearer _ path).trans (ih _ _)

/-! ## The bus -/

theorem leads_send (s : Session) (path interface member : String) (body : List Bus.Value) :
    Leads may s (s.send path interface member body) := by
  unfold send
  dsimp only
  split
  · have hDelivered (c : Client) : Moved may (c, s.scene)
        ({ c with
            board := c.board.deliver path interface member (Bus.Value.arguments body) }, s.scene) :=
      .delivered c _ _ _ _ _
    split
    · cases Manager.change? member (Bus.Value.arguments body) with
      | none => exact .of_move (hDelivered s.client) _
      | some change =>
        have hNoticed : Moved may (s.client, s.scene)
            ({ s.client with tracker := s.client.tracker.notify change }, s.scene) :=
          .noticed s.client s.scene change
        exact (Relation.ReflTransGen.single hNoticed).tail (hDelivered _)
    · exact .of_move (hDelivered s.client) _
  · exact .refl s

theorem leads_request {α : Type} (s : Session) (p : Request α) : Leads may s (s.request p).1 :=
  .of_eq rfl (by simp [request, Scene.events_run])

end Session

/-! ## What goes on by itself -/

namespace Client

variable {may : SlotKey → Watcher → Prop}

theorem isLinked_turnTracker (c : Client) (s : Scene) :
    (c.turnTracker s).1.isLinked = c.isLinked := by
  obtain ⟨tracker, scene, -, hTurn⟩ := c.turnTracker_eq s
  rw [hTurn, isLinked, isLinked]

theorem round_eq (c : Client) (s : Scene) :
    c.round s =
      let tracked := c.turnTracker s
      let observed := tracked.1.turnObservers tracked.2
      let reset := observed.1.turnAllResets observed.2
      (reset.1.unlink, reset.2) := by
  -- A round looks for a manager once, and its turns do not change the answer.
  have hLinked := c.isLinked_turnTracker s
  simp only [round, turnObservers, turnAllResets, ← hLinked]
  rfl

theorem moved_round (c : Client) (s : Scene) :
    Relation.ReflTransGen (Moved may) (c, s) (c.round s) := by
  rw [round_eq]
  exact (((Relation.ReflTransGen.single (.turnedTracker c s)).tail
    (.turnedObservers _ _)).tail (.turnedResets _ _)).tail (.unlinked _ _)

theorem moved_rounds (limit : Nat) (c : Client) (s : Scene) :
    Relation.ReflTransGen (Moved may) (c, s) (rounds limit c s) := by
  induction limit generalizing c s with
  | zero => exact .refl
  | succ limit ih =>
    unfold rounds
    split
    · exact .refl
    · exact (c.moved_round s).trans (ih _ _)

theorem moved_settle (c : Client) (s : Scene) :
    Relation.ReflTransGen (Moved may) (c, s) (c.settle s) :=
  (Relation.ReflTransGen.single (.unlinked c s)).trans (moved_rounds _ _ _)

end Client

namespace Session

variable {may : SlotKey → Watcher → Prop}

theorem leads_settle (s : Session) : Leads may s s.settle := by
  have hSettled : Relation.ReflTransGen (Moved may) (s.client, s.scene)
      (s.client.settle s.scene) := Client.moved_settle s.client s.scene
  unfold settle
  dsimp only
  split
  · exact (hSettled.tail (.expired _ _ _)).tail (.kept _ _ _)
  · exact hSettled.tail (.kept _ _ _)

theorem leads_beginReset (s : Session) (m : Tracked Nat) (h : s.client.managers ≠ 0) :
    Leads may s { s with client := (s.client.beginReset m).1 } :=
  .of_move (.began s.scene m h) _

/-- The session in which a reset that is waited for has just come to its end. -/
def untilReset (s : Session) (m : Tracked Nat) : Session :=
  let settled := (s.client.beginReset m).1.settle s.scene
  { s with client := settled.1.expire (· == s.client.fresh), scene := settled.2 }

theorem leads_untilReset (s : Session) (m : Tracked Nat) (h : s.client.managers ≠ 0) :
    Leads may s (s.untilReset m) := by
  have hBegan : Relation.ReflTransGen (Moved may) (s.client, s.scene)
      ((s.client.beginReset m).1, s.scene) := .single (.began s.scene m h)
  let settled := (s.client.beginReset m).1.settle s.scene
  have hSettled : Relation.ReflTransGen (Moved may) (s.client, s.scene) (settled.1, settled.2) :=
    hBegan.trans (Client.moved_settle _ _)
  exact hSettled.tail (.expired settled.1 settled.2 (· == s.client.fresh))

theorem resetNow_eq (s : Session) (m : Tracked Nat) :
    s.resetNow m =
      ({ s.untilReset m with client := (s.untilReset m).client.endReset s.client.fresh },
        ((s.untilReset m).client.resetResult? s.client.fresh).getD (.error .timeout)) := by
  simp only [resetNow, untilReset, Client.beginReset]

theorem leads_resetNow (s : Session) (m : Tracked Nat) (h : s.client.managers ≠ 0) :
    Leads may s (s.resetNow m).1 :=
  (s.leads_untilReset m h).tail (.ended _ _ _)

/-! ## Steps -/

theorem leads_giveModem (s : Session) (name : Option String) (m : Option (Tracked Nat)) :
    Leads may s (s.giveModem name m).1 := s.leads_keepModem name m

theorem leads_giveOutcome (s : Session) (name : Option String)
    (r : Except Error (Tracked Nat)) : Leads may s (s.giveOutcome name r).1 := by
  cases r with
  | ok m => exact s.leads_giveModem name (some m)
  | error e => exact .refl s

theorem leads_poll (s : Session) (target : String) (name : Option String) :
    Leads may s (s.poll target name).1 := by
  unfold poll
  dsimp only
  split
  · exact .refl s
  · exact .refl s
  · exact (s.leads_forget target).trans (leads_giveOutcome _ _ _)

theorem leads_resetModem (s : Session) (target : String) (background : Bool)
    (name : Option String) (h : s.client.managers ≠ 0) :
    Leads may s (s.resetModem target background name).1 := by
  unfold resetModem
  split
  · exact .refl s
  · rename_i m _
    split
    · exact (s.leads_beginReset m h).trans (leads_keep _ _ _)
    · exact (s.leads_resetNow m h).trans (leads_giveOutcome _ _ _)

/-- What a step may register: the slot, and the tag of the observer. -/
def Registers (s : Session) : Step → SlotKey → String → Prop
  | .call target tag _ call, key, t =>
    t = tag ∧ call.watchKind? = some key.kind ∧
      ∃ h p, s.held? target = some h ∧ s.callOn? h call = some (p, key.owner)
  | _, _, _ => False

theorem leads_receive (s : Session) (owner : Nat) (tag : String) (name : Option String)
    (r : Call.Result) (hMay : ∀ kind w, r = .watch kind w → may ⟨owner, kind⟩ (.ofWatch tag w)) :
    Leads may s (s.receive owner tag name r).1 := by
  cases r with
  | sim path =>
    cases path with
    | none => exact .refl s
    | some path => exact s.leads_keep name _
  | bearer path =>
    cases path with
    | none => exact .refl s
    | some path => exact s.leads_keepBearer name path
  | bearers paths => exact s.leads_keepBearers name 0 paths
  | watch kind w => exact .of_move (.registered _ _ (hMay kind w rfl)) _
  | _ => exact .refl s

/-- Modems, cards and bearers take calls, each its own. -/
theorem callOn?_cases {s : Session} {h : Held} {call : Call} {p : Request Call.Result}
    {owner : Nat} (hCall : s.callOn? h call = some (p, owner)) :
    (∃ m, h = .modem m ∧ call.onModem? s.client.config m.path = some p) ∨
    (∃ path, h = .sim path ∧ call.onSim? path = some p) ∨
    ∃ b, h = .bearer b ∧ call.onBearer? b.path = some p := by
  cases h with
  | modem m =>
    obtain ⟨q, hOn, hEq⟩ := Option.map_eq_some_iff.mp hCall
    cases hEq
    exact .inl ⟨m, rfl, hOn⟩
  | sim path =>
    obtain ⟨q, hOn, hEq⟩ := Option.map_eq_some_iff.mp hCall
    cases hEq
    exact .inr (.inl ⟨path, rfl, hOn⟩)
  | bearer b =>
    obtain ⟨q, hOn, hEq⟩ := Option.map_eq_some_iff.mp hCall
    cases hEq
    exact .inr (.inr ⟨b, rfl, hOn⟩)
  | _ => cases hCall

theorem kind?_of_request {s : Session} {h : Held} {call : Call} {p : Request Call.Result}
    {owner : Nat} {r : Call.Result} (hCall : s.callOn? h call = some (p, owner))
    (hResult : (s.request p).2 = .ok r) : r.kind? = call.watchKind? := by
  have hEnd : p.Possible (.ok r) := hResult ▸ Program.possible_run p _ _ _
  obtain ⟨m, -, hOn⟩ | ⟨path, -, hOn⟩ | ⟨b, -, hOn⟩ := callOn?_cases hCall
  · exact Call.kind?_onModem hOn hEnd
  · exact Call.kind?_onSim hOn hEnd
  · exact Call.kind?_onBearer hOn hEnd

theorem leads_call (s : Session) (target tag : String) (name : Option String) (call : Call) :
    Leads (fun key w => s.Registers (.call target tag name call) key w.tag) s
      (s.call target tag name call).1 := by
  unfold Session.call
  split
  · exact .refl s
  · rename_i p owner hCall
    obtain ⟨h, hHeld, hOn⟩ := Option.bind_eq_some_iff.mp hCall
    have hRequest : Leads (fun key w => s.Registers (.call target tag name call) key w.tag) s
        (s.request p).1 := s.leads_request p
    cases hResult : s.request p with
    | mk s' r =>
      rw [hResult] at hRequest
      cases r with
      | error e => exact hRequest
      | ok r =>
        have hKind := kind?_of_request hOn (congrArg Prod.snd hResult)
        exact hRequest.trans (s'.leads_receive owner tag name r fun kind w hWatch =>
          ⟨rfl, hKind.symm.trans (congrArg _ hWatch), h, p, hHeld, hOn⟩)

theorem leads_give {α : Type} {s : Session} (f : α → Answer) {r : Session × Except Error α}
    (h : Leads may s r.1) : Leads may s (give f r).1 := by
  obtain ⟨s', x⟩ := r
  cases x <;> exact h

theorem leads_useManager (s : Session) (step : Step) (h : s.client.managers ≠ 0) :
    Leads may s (s.useManager step).1 := by
  cases step with
  | version => exact leads_give _ (s.leads_request _)
  | scanDevices => exact leads_give _ (s.leads_request _)
  | anyModem name => exact s.leads_giveModem name _
  | modemAt index name => exact s.leads_giveModem name _
  | awaitModem filter name =>
    exact (Leads.of_move (.requested s.scene filter h) s.held).trans (leads_keep _ _ _)
  | resetModem target background name => exact s.leads_resetModem target background name h
  | _ => exact .refl s

/-- What a step does by moves, if its call does. -/
theorem leads_act_of {s : Session} {step : Step}
    (hCall : ∀ target tag name call, step = .call target tag name call →
      Leads may s (s.call target tag name call).1) : Leads may s (s.act step).1 := by
  have hWorld (f : Bus.World → Bus.World) : Leads may s (s.changeWorld f) :=
    .of_eq rfl (List.Subset.refl _)
  have hManager : Leads may s
      (if s.client.managers = 0 then (s, Answer.noManager) else s.useManager step).1 := by
    split
    · exact .refl s
    · exact s.leads_useManager step ‹_›
  cases step with
  | set path interface property content => exact hWorld _
  | script path method replies => exact hWorld _
  | services modemManager networkManager => exact hWorld _
  | added path interfaces => exact (hWorld _).trans (leads_send _ _ _ _ _)
  | removed path interfaces => exact (hWorld _).trans (leads_send _ _ _ _ _)
  | emit path interface member body => exact s.leads_send path interface member body
  | cloneManager =>
    simp only [act]
    split
    · exact .refl s
    · exact .of_move (.cloned s.scene ‹_›) _
  | dropManager => exact .of_move (.dropped s.client s.scene) _
  | poll target name => exact s.leads_poll target name
  | drop target => exact s.leads_forget target
  | path target =>
    simp only [act]
    split <;> exact .refl s
  | clone target name =>
    simp only [act]
    split
    · exact s.leads_keep name _
    · exact .refl s
  | call target tag name call => exact hCall target tag name call rfl
  | _ => exact hManager

theorem leads_act (s : Session) (step : Step) :
    Leads (fun key w => s.Registers step key w.tag) s (s.act step).1 := by
  refine leads_act_of fun target tag name call hStep => ?_
  subst hStep
  exact s.leads_call target tag name call

/-- What happens in a step once the record is begun anew. Only the step itself registers observers.
-/
theorem leads_step_fresh (s : Session) (step : Step) :
    Leads (fun key w => s.Registers step key w.tag) { s with scene := s.scene.fresh }
      (s.step step).1 :=
  (leads_act { s with scene := s.scene.fresh } step).trans (leads_settle _)

theorem leads_step (s : Session) (step : Step) :
    Leads (fun key w => s.Registers step key w.tag) s (s.step step).1 := by
  have hFresh : Leads (fun key w => s.Registers step key w.tag) s
      { s with scene := s.scene.fresh } := .of_eq rfl (List.nil_subset _)
  exact hFresh.trans (s.leads_step_fresh step)

/-! ## Sessions -/

/-- The session after some steps. -/
def after (s : Session) (steps : List Step) : Session :=
  steps.foldl (fun s step => (s.step step).1) s

@[simp] theorem after_nil (s : Session) : s.after [] = s := rfl

@[simp] theorem after_cons (s : Session) (step : Step) (rest : List Step) :
    s.after (step :: rest) = (s.step step).1.after rest := rfl

theorem after_append (s : Session) (first rest : List Step) :
    s.after (first ++ rest) = (s.after first).after rest := List.foldl_append

/-- What every move keeps, the steps of a session keep. -/
theorem after_keeps {I : Client × Scene → Prop} {s : Session}
    (hMove : ∀ may x y, Moved may x y → I x → I y) (h : I (s.client, s.scene))
    (steps : List Step) : I ((s.after steps).client, (s.after steps).scene) := by
  induction steps generalizing s with
  | nil => exact h
  | cons step rest ih => exact ih ((s.leads_step step).keeps (hMove _) h)

theorem config_after (s : Session) (steps : List Step) :
    (s.after steps).client.config = s.client.config :=
  after_keeps (I := fun x => x.1.config = s.client.config)
    (fun _ _ _ hMoved hBefore => hMoved.config.trans hBefore) rfl steps

/-- A session right after its first manager was started. -/
def opened (config : Config) (modems : List (String × String)) (scene : Scene) : Session :=
  ⟨.ofModems config modems, scene, []⟩

theorem getElem?_runSteps (s : Session) (steps : List Step) (i : Nat) :
    (s.runSteps steps)[i]? =
      steps[i]?.map fun step => ((s.after (steps.take i)).step step).2 := by
  induction steps generalizing s i with
  | nil => rfl
  | cons first rest ih =>
    cases i with
    | zero => rfl
    | succ i => exact ih _ i

/-- In a run the steps are taken in a session that was opened, if the manager can start. -/
theorem run_eq (config : Config) (world : Bus.World) (steps : List Step) :
    let started := Manager.start.run Scene.ask true ⟨world, [], []⟩
    run config (some world) steps =
      match started.result with
      | .error e => [⟨.failed e, started.state.calls, started.state.events⟩]
      | .ok modems => ⟨.nothing, started.state.calls, started.state.events⟩ ::
          (opened config modems started.state).runSteps steps := by
  simp only [run, Manager.connect_ok]
  rfl

/-- What a run has is what the start of the manager gives, or what a step gives. -/
theorem entry_cases {config : Config} {world : Bus.World} {steps : List Step} {i : Nat}
    {entry : Entry} (h : (run config (some world) steps)[i]? = some entry) :
    entry.calls = (Manager.start.run Scene.ask true ⟨world, [], []⟩).state.calls ∨
    ∃ j modems scene step, i = j + 1 ∧ steps[j]? = some step ∧
      entry = (((opened config modems scene).after (steps.take j)).step step).2 := by
  let started := Manager.start.run Scene.ask true ⟨world, [], []⟩
  rw [run_eq] at h
  cases hResult : started.result with
  | error e =>
    simp only [show (Manager.start.run Scene.ask true ⟨world, [], []⟩).result = _ from hResult] at h
    obtain rfl := List.mem_singleton.mp (List.mem_of_getElem? h)
    exact .inl rfl
  | ok modems =>
    simp only [show (Manager.start.run Scene.ask true ⟨world, [], []⟩).result = _ from hResult] at h
    cases i with
    | zero =>
      obtain rfl := Option.some.inj h
      exact .inl rfl
    | succ j =>
      rw [List.getElem?_cons_succ, getElem?_runSteps] at h
      obtain ⟨step, hStep, rfl⟩ := Option.map_eq_some_iff.mp h
      exact .inr ⟨j, modems, _, step, rfl, hStep, rfl⟩

end Session

end ModemLink
