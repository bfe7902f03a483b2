import ModemLink.Proofs.Manager.Order
import ModemLink.Proofs.Manager.Return
import ModemLink.Proofs.Registry.Listing

/-!
# The identity that is recorded

A modem has an IMEI, which it tells when it is asked, and an equipment identifier. An announcement
of it may carry both, one of them or none. The IMEI is what is recorded, whether it is carried or
told, with one exception: an announcement that carries the equipment identifier and not the IMEI
makes the equipment identifier the identity. So announcements of one modem agree only if both or
neither of them are of this shape.

* `Announcement.Shows`, `Identifiers.shownBy`: an announcement of a modem, and the identity that is
  recorded by it.
* `Announcement.Shows.endsWith_identify`: the identification ends with this identity.
* `Tracker.Truthful.faithful`: what is recorded is always shown by one of the announcements.
* `Identifiers.recorded_identity`: when the recorded identity is that of another announcement.
* `Identifiers.imei_lost`: a modem whose IMEI is replaced and that is not recognised.
-/

namespace ModemLink

open Registry (Event)

/-- What a modem can be recognised by. -/
structure Identifiers where
  imei : String
  equipment : String

/-! ## One announcement -/

namespace Announcement

variable {a b : Announcement} {ids : Identifiers}

def imei? (a : Announcement) : Option String := a.text? Bus.Interface.modem3gpp "Imei"

def equipment? (a : Announcement) : Option String :=
  a.text? Bus.Interface.modem "EquipmentIdentifier"

/-- The announcement is of the modem with the given identifiers: those that it carries are
right. -/
structure Shows (a : Announcement) (ids : Identifiers) : Prop where
  isModem : a.isModem = true
  imei : ∀ text ∈ a.imei?, text = ids.imei
  equipment : ∀ text ∈ a.equipment?, text = ids.equipment

/-- Whether the announcement carries the equipment identifier and not the IMEI. -/
def fallsBack (a : Announcement) : Bool := a.imei?.isNone && a.equipment?.isSome

end Announcement

/-- The identity that an announcement of the modem shows. -/
def Identifiers.shownBy (ids : Identifiers) (a : Announcement) : String :=
  if a.fallsBack then ids.equipment else ids.imei

/-- A reply to the question for the IMEI of the modem at a path holds the IMEI. -/
def Identifiers.Told (ids : Identifiers) (path : String) (q : Bus.Query) (r : Bus.Reply) : Prop :=
  q = Reset.imeiQuery path → Reset.imeiIn r = .ok ids.imei

namespace Announcement

variable {a b : Announcement} {ids : Identifiers}

theorem ne_empty_of_text? {interface key text : String} (h : text ∈ a.text? interface key) :
    text ≠ "" := by
  obtain ⟨_, -, -, hText⟩ := text?_eq_some_iff.mp h
  exact hText

theorem Shows.ne_empty (h : a.Shows ids) (hImei : ids.imei ≠ "") : ids.shownBy a ≠ "" := by
  unfold Identifiers.shownBy
  split
  · rename_i hFalls
    obtain ⟨-, hSome⟩ := Bool.and_eq_true_iff.mp hFalls
    obtain ⟨text, hText⟩ := Option.isSome_iff_exists.mp hSome
    exact h.equipment text hText ▸ ne_empty_of_text? hText
  · exact hImei

/-- What the announcement carries is the identity that it shows. If it carries nothing it shows the
IMEI. -/
theorem Shows.identity?_cases (h : a.Shows ids) :
    a.identity? = some (ids.shownBy a) ∨ a.identity? = none ∧ ids.shownBy a = ids.imei := by
  have hIdentity : a.identity? = a.imei?.or a.equipment? := rfl
  cases hImei : a.imei? with
  | some text =>
    have hShown : ids.shownBy a = ids.imei := by simp [Identifiers.shownBy, fallsBack, hImei]
    rw [hIdentity, hImei, hShown, ← h.imei text hImei]
    exact .inl rfl
  | none =>
    cases hEquipment : a.equipment? with
    | some text =>
      have hShown : ids.shownBy a = ids.equipment := by
        simp [Identifiers.shownBy, fallsBack, hImei, hEquipment]
      rw [hIdentity, hImei, hEquipment, hShown, ← h.equipment text hEquipment]
      exact .inl rfl
    | none =>
      refine .inr ⟨by rw [hIdentity, hImei, hEquipment]; rfl, ?_⟩
      simp [Identifiers.shownBy, fallsBack, hImei, hEquipment]

/-- The identification of the announced modem ends with the identity that the announcement shows. -/
theorem Shows.endsWith_identify (h : a.Shows ids) :
    Program.EndsWith (ids.Told a.path) (.ok (ids.shownBy a)) a.identify := by
  unfold identify
  rcases h.identity?_cases with hCarried | ⟨hNone, hShown⟩
  · rw [hCarried]
    exact rfl
  · rw [hNone, hShown]
    intro r hTold
    have hContent : (r.content (.single .string)).mapError (fun f => Error.bus f.standard) =
        .ok ids.imei := hTold rfl
    simp only [hContent]
    rfl

end Announcement

/-! ## What the tracker records -/

/-- One of the announcements is of the modem at a path and shows the identity. -/
def Identifiers.ShownAt (ids : Identifiers) (path : String) (seen : List Announcement)
    (identity : String) : Prop :=
  ∃ a ∈ seen, a.path = path ∧ a.Shows ids ∧ identity = ids.shownBy a

theorem Identifiers.ShownAt.mono {ids : Identifiers} {path identity : String}
    {seen more : List Announcement} (h : ids.ShownAt path seen identity) (hMore : seen ⊆ more) :
    ids.ShownAt path more identity := by
  obtain ⟨a, ha, hShows⟩ := h
  exact ⟨a, hMore ha, hShows⟩

/-- If the modem at a path is known, its recorded identity is shown by one of the announcements. -/
def Identifiers.Recorded (ids : Identifiers) (path : String) (seen : List Announcement)
    (m : Modems) : Prop :=
  m.knows path = true →
    ∃ identity, m.identityOf? path = some identity ∧ ids.ShownAt path seen identity

namespace Identifiers.Recorded

variable {ids : Identifiers} {path : String} {seen more : List Announcement} {m : Modems}

theorem mono (h : ids.Recorded path seen m) (hMore : seen ⊆ more) : ids.Recorded path more m := by
  intro hKnows
  obtain ⟨identity, hIdentity, hShown⟩ := h hKnows
  exact ⟨identity, hIdentity, hShown.mono hMore⟩

theorem of_known {m' : Modems} (h : ids.Recorded path seen m) (hKnown : m'.known = m.known) :
    ids.Recorded path seen m' := by
  unfold Identifiers.Recorded Registry.knows Registry.identityOf?
  rw [hKnown]
  exact h

theorem remove (h : ids.Recorded path seen m) (gone : String) :
    ids.Recorded path seen (m.remove gone).1 := by
  intro hKnows
  rw [Registry.knows_remove] at hKnows
  obtain ⟨hKnew, hOther⟩ := Bool.and_eq_true_iff.mp hKnows
  rw [Registry.identityOf?_remove, if_neg (by simpa using hOther)]
  exact h hKnew

/-- What is recorded next at the path must be shown by an announcement of the modem. -/
theorem add (h : ids.Recorded path seen m) (hImei : ids.imei ≠ "") {object : Tracked Nat}
    {identity : String} (hShown : object.path = path → ids.ShownAt path seen identity) :
    ids.Recorded path seen (m.add object identity).1 := by
  intro hKnows
  rw [Registry.identityOf?_add]
  by_cases hAt : object.path = path
  · obtain ⟨a, ha, hPath, hShows, rfl⟩ := hShown hAt
    exact ⟨_, if_pos ⟨hAt, hShows.ne_empty hImei⟩, a, ha, hPath, hShows, rfl⟩
  · rw [Registry.knows_add, beq_false_of_ne hAt, Bool.or_false] at hKnows
    rw [if_neg fun hBoth => hAt hBoth.1]
    exact h hKnows

end Identifiers.Recorded

namespace Tracker

variable {ids : Identifiers} {path : String} {seen more : List Announcement}
  {s : Tracker × Modems}

/-- The announcements that signals have told. -/
def announced (moves : List Move) : List Announcement :=
  (sent moves).filterMap fun
    | .added a => some a
    | .removed _ => none

/-- What waits to be recorded of the modem at a path, and what is recorded, is shown by an
announcement. -/
structure Faithful (ids : Identifiers) (path : String) (seen : List Announcement)
    (s : Tracker × Modems) : Prop where
  queued : ∀ a ∈ s.1.announcements,
    a ∈ seen ∧ (a.isModem = true → a.path = path → a.Shows ids)
  busy : ∀ p, s.1.identifying = some (path, p) → ∃ identity, ids.ShownAt path seen identity ∧
    Program.EndsWith (ids.Told path) (.ok identity) p
  recorded : ids.Recorded path seen s.2

theorem Faithful.mono (h : Faithful ids path seen s) (hMore : seen ⊆ more) :
    Faithful ids path more s where
  queued a ha := ⟨hMore (h.queued a ha).1, (h.queued a ha).2⟩
  busy p hp := by
    obtain ⟨identity, hShown, hEnds⟩ := h.busy p hp
    exact ⟨identity, hShown.mono hMore, hEnds⟩
  recorded := h.recorded.mono hMore

theorem Faithful.turn (h : Faithful ids path seen s) (hImei : ids.imei ≠ "") (fresh : Nat) :
    Faithful ids path seen (s.1.step true fresh s.2) := by
  have hTurned := turned_step true fresh s.1 s.2
  generalize s.1.step true fresh s.2 = s' at hTurned
  have hFree : ∀ p : Request String, none = some (path, p) → ∃ identity,
      ids.ShownAt path seen identity ∧ Program.EndsWith (ids.Told path) (.ok identity) p :=
    fun _ hNone => nomatch hNone
  cases hTurned with
  | nothing removalsFirst free noAnnouncement noRemoval => exact ⟨h.queued, h.busy, h.recorded⟩
  | @announcement removalsFirst a rest free first =>
    obtain ⟨⟨ha, hShows⟩, hRest⟩ := List.forall_mem_cons.mp (first ▸ h.queued)
    refine ⟨hRest, fun p hp => ?_, h.recorded⟩
    cases hModem : a.isModem with
    | false => simp [hModem] at hp
    | true =>
      obtain ⟨rfl, rfl⟩ : a.path = path ∧ a.identify = p := by simpa [hModem] using hp
      have hShows := hShows hModem rfl
      exact ⟨_, ⟨a, ha, rfl, hShows, rfl⟩, hShows.endsWith_identify⟩
  | @removal removalsFirst r rest free first =>
    refine ⟨h.queued, hFree, ?_⟩
    dsimp only
    split
    · exact h.recorded.remove r.path
    · exact h.recorded
  -- The busy program was told the truth, so it ended with what its announcement shows.
  | @identified at' identity p busy ended =>
    refine ⟨h.queued, hFree, h.recorded.add hImei fun hAt => ?_⟩
    obtain rfl : at' = path := hAt
    obtain ⟨shown, hShown, hEnds⟩ := h.busy p busy
    have hEnd := hEnds.proceed
    rw [ended] at hEnd
    obtain rfl : identity = shown := Except.ok.inj hEnd
    exact hShown
  | failed busy ended => exact ⟨h.queued, hFree, h.recorded⟩
  | @asking at' p q next busy asks =>
    refine ⟨h.queued, fun p' hp => ?_, h.recorded⟩
    obtain ⟨rfl, rfl⟩ : at' = path ∧ .ask q next = p' := by simpa using hp
    obtain ⟨shown, hShown, hEnds⟩ := h.busy p busy
    exact ⟨shown, hShown, asks ▸ hEnds.proceed⟩

theorem Faithful.replied (h : Faithful ids path seen s) {r : Bus.Reply}
    (hTold : ∀ q ∈ s.1.question?, ids.Told path q r) :
    Faithful ids path seen (s.1.reply r, s.2) := by
  unfold reply
  split
  · rename_i at' q next hBusy
    have hQuestion : s.1.question? = some q := by rw [question?, hBusy]
    refine ⟨h.queued, fun p hp => ?_, h.recorded⟩
    obtain ⟨rfl, rfl⟩ : at' = path ∧ next r = p := by simpa using hp
    obtain ⟨shown, hShown, hEnds⟩ := h.busy _ hBusy
    exact ⟨shown, hShown, hEnds r (hTold q hQuestion)⟩
  · exact h

/-- The moves tell the truth about the modem at a path: every announcement of it shows it, every
reply to the question for its IMEI holds the IMEI, and the manager exists. -/
structure Truthful (ids : Identifiers) (path : String) (m : Modems) (moves : List Move) :
    Prop where
  linked : ∀ linked fresh, .turn linked fresh ∈ moves → linked = true
  announcements : ∀ a ∈ announced moves, a.isModem = true → a.path = path → a.Shows ids
  replies : ∀ before r after, moves = before ++ .replied r :: after →
    ∀ q ∈ (run m before).1.question?, ids.Told path q r

theorem announced_concat (moves : List Move) (x : Move) :
    announced (moves ++ [x]) = announced moves ++ announced [x] := by
  simp [announced, sent]

theorem Truthful.of_concat {m : Modems} {moves : List Move} {x : Move}
    (h : Truthful ids path m (moves ++ [x])) : Truthful ids path m moves where
  linked linked fresh hMem := h.linked linked fresh (List.mem_append_left _ hMem)
  announcements a ha :=
    h.announcements a (announced_concat moves x ▸ List.mem_append_left _ ha)
  replies before r after hMoves :=
    h.replies before r (after ++ [x]) (by rw [hMoves, List.append_assoc, List.cons_append])

theorem Truthful.faithful {m : Modems} {moves : List Move} (h : Truthful ids path m moves)
    (hImei : ids.imei ≠ "") (hRecorded : ids.Recorded path seen m) :
    Faithful ids path (seen ++ announced moves) (run m moves) := by
  induction moves using List.reverseRecOn with
  | nil =>
    refine ⟨fun a ha => absurd ha List.not_mem_nil, fun p hp => (nomatch hp), ?_⟩
    exact hRecorded.mono (List.subset_append_left seen _)
  | append_singleton moves x ih =>
    have hBefore := ih h.of_concat
    have hMore : seen ++ announced moves ⊆ seen ++ announced (moves ++ [x]) := by
      rw [announced_concat, ← List.append_assoc]
      exact List.subset_append_left _ _
    have hBefore := hBefore.mono hMore
    have hRun : run m (moves ++ [x]) = move (run m moves) x := by
      rw [run_append]
      rfl
    rw [hRun]
    cases x with
    | signal member arguments =>
      simp only [move]
      cases hc : Manager.change? member arguments with
      | none => exact hBefore
      | some c =>
        cases c with
        | removed r => exact ⟨hBefore.queued, hBefore.busy, hBefore.recorded⟩
        | added a =>
          have hSent : a ∈ announced (moves ++ [.signal member arguments]) := by
            simp [announced, sent, Move.change?, hc]
          refine ⟨fun b hb => ?_, hBefore.busy, hBefore.recorded⟩
          rcases List.mem_append.mp hb with hOld | hNew
          · exact hBefore.queued b hOld
          · obtain rfl := List.mem_singleton.mp hNew
            exact ⟨List.mem_append_right _ hSent, h.announcements b hSent⟩
    | turn linked fresh =>
      obtain rfl := h.linked linked fresh (by simp)
      exact hBefore.turn hImei fresh
    | replied r => exact hBefore.replied (h.replies moves r [] rfl)
    | requested filter =>
      exact ⟨hBefore.queued, hBefore.busy, hBefore.recorded.of_known (Registry.known_await _ _)⟩
    | dropped id => exact ⟨hBefore.queued, hBefore.busy, hBefore.recorded.of_known rfl⟩

end Tracker

/-! ## Recognising a modem that comes back -/

/-- A request for an identity is resolved by a modem that appears if that is its identity. -/
theorem Registry.outcome?_added_iff {r : Modems} {id : Registry.RequestId}
    {wanted identity : String} {object : Tracked Nat} (h : r.Waits id (.imei wanted))
    (hNew : r.knows object.path = false) (hProper : identity ≠ "") :
    (r.apply (.added object identity)).outcome? id = some (.ok object) ↔ wanted = identity := by
  constructor
  · intro hOutcome
    by_contra hOther
    have hQuiet : r.settles (.imei wanted) (.added object identity) = false := by
      simp [Registry.settles, ModemFilter.accepts, hOther]
    have hWaits := h.apply hQuiet (by simp)
    rw [Registry.outcome?_eq_none_of_waiting hWaits.future] at hOutcome
    cases hOutcome
  · rintro rfl
    have hSettles : r.settles (.imei wanted) (.added object wanted) = true := by
      simp [Registry.settles, ModemFilter.accepts_iff, hNew, hProper]
    exact Registry.outcome?_of_verdict (h.future_apply hSettles)

/-- A reset of a modem with a recorded identity makes the request for this identity at once. -/
theorem Reset.step_begin {m : Modems} {path identity : String}
    (h : m.identityOf? path = some identity) (hProper : identity ≠ "") (linked : Bool) :
    Reset.step path linked m (.begin m path) =
      (Reset.made m identity, .resetting m.futures.length (Modem.reset path)) := by
  have hBegin : Reset.begin m path = .identifying (.done identity) := by
    rw [Reset.begin, h]
    rfl
  have hIdentity : Reset.step path linked m (.begin m path) =
      Reset.onIdentity path m identity := by
    rw [hBegin]
    rfl
  rw [hIdentity, Reset.onIdentity, if_neg (by simpa using hProper),
    ← Registry.await_snd m (.imei identity)]
  rfl

namespace Identifiers

variable {ids : Identifiers} {a b : Announcement}

/-- Two announcements of a modem show one identity only if both or neither of them carry the
equipment identifier without the IMEI. -/
theorem shownBy_eq_iff (ids : Identifiers) (a b : Announcement) :
    ids.shownBy a = ids.shownBy b ↔ a.fallsBack = b.fallsBack ∨ ids.imei = ids.equipment := by
  unfold shownBy
  cases a.fallsBack <;> cases b.fallsBack <;> simp [eq_comm]

/-- **The identity that is recorded depends on what is carried.** Let two announcements be of one
modem, which has an IMEI. The identification of the announced modem ends with the identity that the
announcement shows, and this is what the registry holds, whether the path was known or not. For both
announcements it is the same only if both or neither of them carry the equipment identifier without
the IMEI, or if the IMEI is the equipment identifier.

So it is with a reset as well. After the one announcement it waits for the identity that this one
shows, and the modem that comes back with the other one is recognised on this condition.

Whatever the tracker is told, what is recorded of a modem is always shown by an announcement of it,
the IMEI if none of them carries the equipment identifier alone. -/
theorem recorded_identity (ids : Identifiers) (hImei : ids.imei ≠ "") (a b : Announcement)
    (hA : a.Shows ids) (hB : b.Shows ids) :
    (∀ (σ : Type) (answer : σ → Bus.Query → Bus.Reply × σ) (s : σ),
      (∀ s q, ids.Told a.path q (answer s q).1) →
      (a.identify.run answer true s).result = .ok (ids.shownBy a)) ∧
    (∀ (m : Modems) (fresh : Nat),
      (m.add ⟨a.path, fresh⟩ (ids.shownBy a)).1.identityOf? a.path = some (ids.shownBy a)) ∧
    (ids.shownBy a = ids.shownBy b ↔ a.fallsBack = b.fallsBack ∨ ids.imei = ids.equipment) ∧
    (∀ (m : Modems) (linked : Bool), m.identityOf? a.path = some (ids.shownBy a) →
      let made := Reset.made m (ids.shownBy a)
      Reset.step a.path linked m (.begin m a.path) =
        (made, .resetting m.futures.length (Modem.reset a.path)) ∧
      ∀ (mid : List (Event Nat)) (fresh : Nat), Registry.Quiet (.imei (ids.shownBy a)) made mid →
        .dropped m.futures.length ∉ mid → (made.applyAll mid).knows b.path = false →
        ((made.applyAll (mid ++ [.added ⟨b.path, fresh⟩ (ids.shownBy b)])).outcome?
            m.futures.length = some (.ok ⟨b.path, fresh⟩) ↔
          a.fallsBack = b.fallsBack ∨ ids.imei = ids.equipment)) ∧
    ∀ (path : String) (seen : List Announcement) (m : Modems) (moves : List Tracker.Move),
      ids.Recorded path seen m → Tracker.Truthful ids path m moves →
      ids.Recorded path (seen ++ Tracker.announced moves) (Tracker.run m moves).2 ∧
      ((∀ c ∈ seen ++ Tracker.announced moves, c.fallsBack = false) →
        (Tracker.run m moves).2.knows path = true →
        (Tracker.run m moves).2.identityOf? path = some ids.imei) := by
  refine ⟨fun σ answer s hTold => hA.endsWith_identify.result hTold s, fun m fresh => ?_,
    ids.shownBy_eq_iff a b, fun m linked hRecorded => ?_, fun path seen m moves hStart hTrue => ?_⟩
  · rw [Registry.identityOf?_add, if_pos ⟨rfl, hA.ne_empty hImei⟩]
  · intro made
    refine ⟨Reset.step_begin hRecorded (hA.ne_empty hImei) linked, ?_⟩
    intro mid fresh hQuiet hKept hNew
    have hWaits := (Reset.waits_made m (ids.shownBy a)).applyAll hQuiet hKept
    rw [Registry.applyAll_concat, Registry.outcome?_added_iff hWaits hNew (hB.ne_empty hImei),
      ids.shownBy_eq_iff]
  · have hAll := (hTrue.faithful hImei hStart).recorded
    refine ⟨hAll, fun hNone hKnows => ?_⟩
    obtain ⟨identity, hIdentity, c, hc, -, -, rfl⟩ := hAll hKnows
    rw [hIdentity, shownBy, hNone c hc]
    rfl

/-- A modem that tells its IMEI, and is recognised when it comes back with it. -/
theorem modem_recognised :
    let ids : Identifiers := ⟨"356938035643809", "A1000049AA3B21"⟩
    let here := "/org/freedesktop/ModemManager1/Modem/0"
    let there := "/org/freedesktop/ModemManager1/Modem/1"
    let plain : List (String × List (String × Bus.Value)) := [(Bus.Interface.modem, [])]
    let full : List (String × List (String × Bus.Value)) :=
      [(Bus.Interface.modem, [("EquipmentIdentifier", .string ids.equipment)]),
        (Bus.Interface.modem3gpp, [("Imei", .string ids.imei)])]
    let moves : List Tracker.Move :=
      [.signal "InterfacesAdded" [.path here, .interfaces plain], .turn true 1, .turn true 2,
        .replied (.ok [.string ids.imei]), .turn true 3]
    let m := (Tracker.run .empty moves).2
    let made := Reset.made m ids.imei
    ids.imei ≠ "" ∧ (Announcement.ofBus here plain).Shows ids ∧
      (Announcement.ofBus there full).Shows ids ∧ ids.Recorded here [] .empty ∧
      Tracker.Truthful ids here .empty moves ∧ m.identityOf? here = some ids.imei ∧
      Reset.step here true m (.begin m here) = (made, .resetting 0 (Modem.reset here)) ∧
      (made.applyAll [.removed here, .added ⟨there, 4⟩ ids.imei]).outcome? 0 =
        some (.ok ⟨there, 4⟩) := by
  intro ids here there plain full moves m made
  have hImei : ids.imei ≠ "" := by decide
  have hPlain : (Announcement.ofBus here plain).Shows ids := by
    subst ids here plain
    exact ⟨by rfl, by decide, by decide⟩
  have hFull : (Announcement.ofBus there full).Shows ids := by
    subst ids there full
    exact ⟨by rfl, by decide, by decide⟩
  have hStart : ids.Recorded here [] .empty := fun hKnows => nomatch hKnows
  have hTrue : Tracker.Truthful ids here .empty moves := by
    refine ⟨fun linked fresh hMem => ?_, fun a ha _ _ => ?_, fun before r after hMoves q _ _ => ?_⟩
    · simp only [moves, List.mem_cons, reduceCtorEq, Tracker.Move.turn.injEq, false_or] at hMem
      tauto
    · obtain rfl : a = .ofBus here plain := by
        subst ids here plain moves
        exact List.mem_singleton.mp ha
      exact hPlain
    · have hMem : Tracker.Move.replied r ∈ moves := hMoves ▸ by simp
      obtain rfl : r = .ok [.string ids.imei] := by simpa [moves] using hMem
      rfl
  have hShown : ids.shownBy (.ofBus here plain) = ids.imei ∧
      ids.shownBy (.ofBus there full) = ids.imei := by
    subst ids here there plain full
    exact ⟨rfl, rfl⟩
  have hMade : m.futures.length = 0 := by
    subst ids here plain moves m
    rfl
  obtain ⟨-, -, -, hReset, hRuns⟩ := recorded_identity ids hImei _ _ hPlain hFull
  have hKnows : m.knows here = true := by
    subst ids here plain moves m
    rfl
  have hNone : ∀ c ∈ [] ++ Tracker.announced moves, c.fallsBack = false := by
    subst ids here plain moves
    decide
  have hRecorded : m.identityOf? here = some ids.imei :=
    (hRuns here [] .empty moves hStart hTrue).2 hNone hKnows
  simp only [hShown] at hReset
  obtain ⟨hStep, hBack⟩ := hReset m true hRecorded
  rw [hMade] at hStep hBack
  refine ⟨hImei, hPlain, hFull, hStart, hTrue, hRecorded, hStep,
    (hBack [.removed here] 4 ⟨rfl, trivial⟩ (by simp) ?_).mpr (.inl ?_)⟩
  · subst ids here there plain full moves m
    rfl
  · subst ids here there plain full
    rfl

/-- A modem that is announced again without its IMEI loses it, and when it has come back from a
reset in this way it is not recognised. -/
theorem imei_lost :
    let ids : Identifiers := ⟨"356938035643809", "A1000049AA3B21"⟩
    let here := "/org/freedesktop/ModemManager1/Modem/0"
    let there := "/org/freedesktop/ModemManager1/Modem/1"
    let bare : List (String × List (String × Bus.Value)) :=
      [(Bus.Interface.modem, [("EquipmentIdentifier", .string ids.equipment)]),
        (Bus.Interface.modem3gpp, [])]
    let full : List (String × List (String × Bus.Value)) :=
      [(Bus.Interface.modem, [("EquipmentIdentifier", .string ids.equipment)]),
        (Bus.Interface.modem3gpp, [("Imei", .string ids.imei)])]
    let told (path : String) (interfaces : List (String × List (String × Bus.Value))) :
        List Tracker.Move :=
      [.signal "InterfacesAdded" [.path path, .interfaces interfaces], .turn true 1, .turn true 2]
    let first := Tracker.run .empty (told here full)
    let again := Tracker.run .empty (told here full ++ told here bare)
    let back :=
      Tracker.run .empty (told here full ++ .requested (.imei ids.imei) :: told there bare)
    (Announcement.ofBus here full).Shows ids ∧ (Announcement.ofBus here bare).Shows ids ∧
      (Announcement.ofBus there bare).Shows ids ∧
      first.2.identityOf? here = some ids.imei ∧
      again.2.identityOf? here = some ids.equipment ∧
      back.1.isIdle = true ∧ back.2.knows there = true ∧ back.2.outcome? 0 = none := by
  intro ids here there bare full told first again back
  subst ids here there bare full told first again back
  refine ⟨⟨by rfl, by decide, by decide⟩, ⟨by rfl, by decide, by decide⟩,
    ⟨by rfl, by decide, by decide⟩, by rfl, by rfl, by rfl, by rfl, by rfl⟩

end Identifiers

end ModemLink
