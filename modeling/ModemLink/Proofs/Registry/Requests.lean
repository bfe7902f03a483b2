import Mathlib.Data.List.Induction
import ModemLink.Proofs.Registry.Events

/-!
# The outcome of await requests

A request waits until the first event that settles it: a newer request, which cancels it, or the
appearance of an object that was not known and whose identity its filter accepts. From then on its
outcome is fixed. A request that was dropped before gets nothing, and nobody else gets less by it.

* `Quiet`: events none of which settles a request when it comes.
* `Waits.applyAll`, `resolved_of_added`, `cancelled_of_requested`: what a request comes to.
* `exists_request_of_waits`, `exists_request_of_resolved`: where a request comes from that waits,
  and one that got an object.
* `requests_settle_once`: all of this for every list of events.
-/

namespace ModemLink.Registry

variable {H : Type} {r : Registry H} {id : RequestId} {filter : ModemFilter}

/-- None of the events settles a request with the given filter when it comes. -/
def Quiet (filter : ModemFilter) : Registry H → List (Event H) → Prop
  | _, [] => True
  | r, e :: rest => r.settles filter e = false ∧ Quiet filter (r.apply e) rest

theorem quiet_append (first rest : List (Event H)) :
    Quiet filter r (first ++ rest) ↔
      Quiet filter r first ∧ Quiet filter (r.applyAll first) rest := by
  induction first generalizing r with
  | nil => simp [Quiet]
  | cons e first ih => simp only [List.cons_append, Quiet, applyAll_cons, ih, and_assoc]

theorem quiet_concat (events : List (Event H)) (e : Event H) :
    Quiet filter r (events ++ [e]) ↔
      Quiet filter r events ∧ (r.applyAll events).settles filter e = false := by
  rw [quiet_append]
  simp [Quiet]

/-! ## From a request to its outcome -/

theorem Waits.applyAll {events : List (Event H)} (h : r.Waits id filter)
    (hQuiet : Quiet filter r events) (hDrop : .dropped id ∉ events) :
    (r.applyAll events).Waits id filter := by
  induction events generalizing r with
  | nil => exact h
  | cons e rest ih =>
    have hNe : e ≠ .dropped id := (List.ne_of_not_mem_cons hDrop).symm
    exact ih (h.apply hQuiet.1 hNe) hQuiet.2 (List.not_mem_of_not_mem_cons hDrop)

theorem future_apply_of_ne_waiting {e : Event H} {future : Future H}
    (h : r.futures[id]? = some future) (hFuture : future ≠ .waiting) (hDrop : e ≠ .dropped id) :
    (r.apply e).futures[id]? = some future := by
  rcases future_apply r e id with hSame | ⟨f, hWaits, -⟩ | ⟨f, -, rfl, -⟩ | ⟨hEq, -⟩
  · exact hSame.trans h
  · rw [hWaits.future] at h
    exact (hFuture (Option.some.inj h).symm).elim
  · rw [List.getElem?_eq_none (Nat.le_refl _)] at h
    cases h
  · exact (hDrop hEq).elim

theorem future_applyAll_of_ne_waiting {events : List (Event H)} {future : Future H}
    (h : r.futures[id]? = some future) (hFuture : future ≠ .waiting)
    (hDrop : .dropped id ∉ events) : (r.applyAll events).futures[id]? = some future := by
  induction events generalizing r with
  | nil => exact h
  | cons e rest ih =>
    have hNe : e ≠ .dropped id := (List.ne_of_not_mem_cons hDrop).symm
    exact ih (future_apply_of_ne_waiting h hFuture hNe) (List.not_mem_of_not_mem_cons hDrop)

theorem abandoned_applyAll {events : List (Event H)} (h : r.futures[id]? = some .abandoned) :
    (r.applyAll events).futures[id]? = some .abandoned := by
  induction events generalizing r with
  | nil => exact h
  | cons e rest ih =>
    refine ih ?_
    by_cases hDrop : e = .dropped id
    · subst e
      exact List.getElem?_set_self (List.getElem?_eq_some_iff.mp h).1
    · exact future_apply_of_ne_waiting h (by simp) hDrop

theorem abandoned_of_dropped {events : List (Event H)} (hLt : id < r.futures.length)
    (hDrop : .dropped id ∈ events) : (r.applyAll events).futures[id]? = some .abandoned := by
  obtain ⟨first, rest, rfl⟩ := List.append_of_mem hDrop
  rw [applyAll_append, applyAll_cons]
  exact abandoned_applyAll (List.getElem?_set_self (lt_length_futures_applyAll first hLt))

theorem Waits.exists_added {events : List (Event H)} {object : Tracked H} (h : r.Waits id filter)
    (hResolved : (r.applyAll events).futures[id]? = some (.resolved object)) :
    ∃ before identity after, events = before ++ .added object identity :: after ∧
      (r.applyAll before).settles filter (.added object identity) = true := by
  induction events generalizing r with
  | nil =>
    rw [applyAll_nil, h.future] at hResolved
    cases hResolved
  | cons e rest ih =>
    have hDrop : .dropped id ∉ e :: rest := by
      intro hMem
      rw [abandoned_of_dropped h.lt hMem] at hResolved
      cases hResolved
    cases hSettles : r.settles filter e with
    | true =>
      have hVerdict := future_applyAll_of_ne_waiting (h.future_apply hSettles)
        (verdict_ne_waiting e) (List.not_mem_of_not_mem_cons hDrop)
      have hEq : e.verdict = .resolved object := by
        rw [applyAll_cons, hVerdict] at hResolved
        exact Option.some.inj hResolved
      cases e with
      | added other identity =>
        obtain rfl : other = object := Future.resolved.inj hEq
        exact ⟨[], identity, rest, rfl, hSettles⟩
      | _ => cases hEq
    | false =>
      have hWaits := h.apply hSettles (List.ne_of_not_mem_cons hDrop).symm
      obtain ⟨before, identity, after, rfl, hBefore⟩ := ih hWaits hResolved
      exact ⟨e :: before, identity, after, rfl, hBefore⟩

/-! ## From an outcome to its request -/

/-- Only the pending request can be waited for. -/
def Sound (r : Registry H) : Prop :=
  ∀ id, r.futures[id]? = some .waiting → ∃ filter, r.Waits id filter

theorem sound_empty : (empty : Registry H).Sound := by
  intro id h
  cases h

/-- A request that is waited for after an event either was before, and the event neither settled nor
dropped it, or was made by the event. -/
theorem Sound.waits_before {e : Event H} (h : r.Sound)
    (hNew : (r.apply e).futures[id]? = some .waiting) :
    (∃ f, r.Waits id f ∧ r.settles f e = false ∧ e ≠ .dropped id) ∨
      ∃ f, e = .requested f ∧ id = r.futures.length := by
  rcases future_apply r e id with hSame | ⟨f, -, -, hVerdict⟩ | ⟨f, he, hId, -⟩ | ⟨-, -, hDropped⟩
  · obtain ⟨f, hWaits⟩ := h id (hSame.symm.trans hNew)
    refine .inl ⟨f, hWaits, Bool.eq_false_iff.mpr fun hSettles => ?_, ?_⟩
    · rw [hWaits.future_apply hSettles] at hNew
      exact verdict_ne_waiting e (Option.some.inj hNew)
    · rintro rfl
      have hDropped : (r.apply (.dropped id)).futures[id]? = some .abandoned :=
        List.getElem?_set_self hWaits.lt
      rw [hDropped] at hNew
      cases hNew
  · rw [hVerdict] at hNew
    exact (verdict_ne_waiting e (Option.some.inj hNew)).elim
  · exact .inr ⟨f, he, hId⟩
  · rw [hDropped] at hNew
    cases hNew

theorem Sound.apply (h : r.Sound) (e : Event H) : (r.apply e).Sound := by
  intro id hNew
  rcases h.waits_before hNew with ⟨f, hWaits, hQuiet, hDrop⟩ | ⟨f, rfl, rfl⟩
  · exact ⟨f, hWaits.apply hQuiet hDrop⟩
  · exact ⟨f, waits_await r f⟩

theorem Sound.applyAll (h : r.Sound) (events : List (Event H)) : (r.applyAll events).Sound := by
  induction events generalizing r with
  | nil => exact h
  | cons e rest ih => exact ih (h.apply e)

theorem sound_applyAll_empty (events : List (Event H)) :
    ((empty : Registry H).applyAll events).Sound := sound_empty.applyAll events

theorem Sound.eq_of_waiting (h : r.Sound) {i j : RequestId}
    (hi : r.futures[i]? = some .waiting) (hj : r.futures[j]? = some .waiting) : i = j := by
  obtain ⟨f, hWaitsI⟩ := h i hi
  obtain ⟨g, hWaitsJ⟩ := h j hj
  have hPending := hWaitsI.pending.symm.trans hWaitsJ.pending
  exact congrArg Prod.fst (Option.some.inj hPending)

/-- The request with a number and a filter was made after the events of `past`, and none of the
events of `since` has settled or dropped it. -/
structure MadeAfter (past since : List (Event H)) (id : RequestId) (filter : ModemFilter) :
    Prop where
  number : id = ((empty : Registry H).applyAll past).futures.length
  quiet : Quiet filter (((empty : Registry H).applyAll past).apply (.requested filter)) since
  kept : .dropped id ∉ since

/-- A request that waits was made by one of the events, and none since then settled or dropped it.
-/
theorem exists_request_of_waits {events : List (Event H)}
    (h : ((empty : Registry H).applyAll events).Waits id filter) :
    ∃ past since, events = past ++ .requested filter :: since ∧ MadeAfter past since id filter := by
  induction events using List.reverseRecOn with
  | nil => cases h.pending
  | append_singleton events e ih =>
    rw [applyAll_concat] at h
    rcases (sound_applyAll_empty events).waits_before h.future with
      ⟨f, hWaits, hQuiet, hDrop⟩ | ⟨f, rfl, hId⟩
    · have hSame := (hWaits.apply hQuiet hDrop).pending.symm.trans h.pending
      obtain rfl : f = filter := congrArg Prod.snd (Option.some.inj hSame)
      obtain ⟨past, since, rfl, made⟩ := ih hWaits
      refine ⟨past, since ++ [e], by simp, made.number, ?_, ?_⟩
      · refine (quiet_concat since e).mpr ⟨made.quiet, ?_⟩
        rwa [applyAll_append, applyAll_cons] at hQuiet
      · simpa [made.kept] using Ne.symm hDrop
    · have hPending := h.pending
      rw [apply, pending_await] at hPending
      obtain rfl : f = filter := congrArg Prod.snd (Option.some.inj hPending)
      exact ⟨events, [], rfl, hId, trivial, List.not_mem_nil⟩

/-- A request that got an object was made by one of the events, and got the first object after that
which was not known and which its filter accepted. -/
theorem exists_request_of_resolved {events : List (Event H)} {object : Tracked H}
    (h : ((empty : Registry H).applyAll events).futures[id]? = some (.resolved object)) :
    ∃ past filter before identity after,
      events = past ++ .requested filter :: (before ++ .added object identity :: after) ∧
        MadeAfter past before id filter ∧
        ((empty : Registry H).applyAll (past ++ .requested filter :: before)).settles filter
          (.added object identity) = true ∧
        .dropped id ∉ after := by
  induction events using List.reverseRecOn with
  | nil => cases h
  | append_singleton events e ih =>
    rw [applyAll_concat] at h
    rcases future_apply ((empty : Registry H).applyAll events) e id with
      hSame | ⟨filter, hWaits, hSettles, hVerdict⟩ | ⟨f, -, -, hNew⟩ | ⟨-, -, hDropped⟩
    · have hOld := hSame.symm.trans h
      obtain ⟨past, filter, before, identity, after, rfl, made, hSettles, hKept⟩ := ih hOld
      refine ⟨past, filter, before, identity, after ++ [e], by simp, made, hSettles, ?_⟩
      have hDrop : e ≠ .dropped id := by
        rintro rfl
        rw [apply, abandon, List.getElem?_set_self (List.getElem?_eq_some_iff.mp hOld).1] at h
        cases h
      simpa [hKept] using Ne.symm hDrop
    · obtain ⟨past, since, rfl, made⟩ := exists_request_of_waits hWaits
      rw [hVerdict] at h
      cases e with
      | added other identity =>
        obtain rfl : other = object := Future.resolved.inj (Option.some.inj h)
        exact ⟨past, filter, since, identity, [], by simp, made, hSettles, List.not_mem_nil⟩
      | removed path => cases hSettles
      | requested f => cases h
      | polled other => cases hSettles
      | dropped other => cases hSettles
    · rw [hNew] at h
      cases h
    · rw [hDropped] at h
      cases h

/-! ## Outcomes -/

theorem outcome?_eq_some_ok {object : Tracked H} :
    r.outcome? id = some (.ok object) ↔ r.futures[id]? = some (.resolved object) := by
  unfold outcome?
  split <;> simp_all

theorem outcome?_eq_none_of_waiting (h : r.futures[id]? = some .waiting) :
    r.outcome? id = none := by
  rw [outcome?, h]

theorem outcome?_eq_none_of_abandoned (h : r.futures[id]? = some .abandoned) :
    r.outcome? id = none := by
  rw [outcome?, h]

/-- An event gives a request its outcome. -/
def Completes (r : Registry H) (e : Event H) (id : RequestId) : Prop :=
  r.outcome? id = none ∧ (r.apply e).outcome? id ≠ none

/-- An event completes no request but one that waits and is settled by it. -/
theorem Completes.waits {e : Event H} (h : r.Completes e id) :
    ∃ filter, r.Waits id filter ∧ r.settles filter e = true := by
  rcases future_apply r e id with hSame | ⟨filter, hWaits, hSettles, -⟩ | ⟨f, -, -, hNew⟩ |
      ⟨-, -, hDropped⟩
  · refine (h.2 ?_).elim
    rw [outcome?, hSame]
    exact h.1
  · exact ⟨filter, hWaits, hSettles⟩
  · exact (h.2 (outcome?_eq_none_of_waiting hNew)).elim
  · exact (h.2 (outcome?_eq_none_of_abandoned hDropped)).elim

theorem accepts_empty (filter : ModemFilter) (h : filter.accepts "" = true) : filter = .any :=
  (ModemFilter.accepts_iff.mp h).resolve_right fun hImei => hImei.2 rfl

theorem settles_iff {e : Event H} :
    r.settles filter e = true ↔
      (∃ newer, e = .requested newer) ∨
        ∃ object identity, e = .added object identity ∧ r.knows object.path = false ∧
          filter.accepts identity = true := by
  cases e <;> simp [settles]

theorem outcome?_eq_none_of_quiet {events : List (Event H)} (h : r.Waits id filter)
    (hQuiet : Quiet filter r events) : (r.applyAll events).outcome? id = none := by
  by_cases hDrop : .dropped id ∈ events
  · exact outcome?_eq_none_of_abandoned (abandoned_of_dropped h.lt hDrop)
  · exact outcome?_eq_none_of_waiting (h.applyAll hQuiet hDrop).future

/-- The verdict on a request stands whatever happens later. -/
theorem future_of_settled {before after : List (Event H)} {e : Event H} (h : r.Waits id filter)
    (hQuiet : Quiet filter r before) (hSettles : (r.applyAll before).settles filter e = true)
    (hDrop : .dropped id ∉ before ++ after) :
    (r.applyAll (before ++ e :: after)).futures[id]? = some e.verdict := by
  obtain ⟨hBefore, hAfter⟩ : .dropped id ∉ before ∧ .dropped id ∉ after := by
    simpa only [List.mem_append, not_or] using hDrop
  have hVerdict := (h.applyAll hQuiet hBefore).future_apply hSettles
  rw [applyAll_append, applyAll_cons]
  exact future_applyAll_of_ne_waiting hVerdict (verdict_ne_waiting e) hAfter

/-- The result that a request gets by an event that settles it. -/
def Event.result : Event H → Except Error (Tracked H)
  | .added object _ => .ok object
  | _ => .error .cancelled

theorem outcome?_of_verdict {e : Event H} (h : r.futures[id]? = some e.verdict) :
    r.outcome? id = some e.result := by
  rw [outcome?, h]
  cases e <;> rfl

theorem outcome?_applyAll {events : List (Event H)} {result : Except Error (Tracked H)}
    (h : r.outcome? id = some result) (hDrop : .dropped id ∉ events) :
    (r.applyAll events).outcome? id = some result := by
  have hFuture : ∃ future, r.futures[id]? = some future ∧ future ≠ .waiting := by
    unfold outcome? at h
    split at h
    · exact ⟨_, ‹_›, by simp⟩
    · exact ⟨_, ‹_›, by simp⟩
    · cases h
  obtain ⟨future, hNow, hNe⟩ := hFuture
  rw [outcome?, future_applyAll_of_ne_waiting hNow hNe hDrop, ← hNow]
  exact h

theorem Sound.not_waiting_applyAll {events : List (Event H)} (h : r.Sound)
    (hNone : ∀ other : RequestId, r.futures[other]? ≠ some .waiting)
    (hQuiet : Quiet filter r events)
    (other : RequestId) : (r.applyAll events).futures[other]? ≠ some .waiting := by
  induction events generalizing r with
  | nil => exact hNone other
  | cons e rest ih =>
    refine ih (h.apply e) (fun i hi => ?_) hQuiet.2
    rcases h.waits_before hi with ⟨f, hWaits, -⟩ | ⟨f, rfl, -⟩
    · exact hNone i hWaits.future
    · cases hQuiet.1

/-- If a request is dropped before anything settles it, nobody waits until another one is made. -/
theorem Sound.not_waiting_of_dropped {events : List (Event H)} (hSound : r.Sound)
    (h : r.Waits id filter) (hQuiet : Quiet filter r events) (hDrop : .dropped id ∈ events)
    (other : RequestId) : (r.applyAll events).futures[other]? ≠ some .waiting := by
  induction events generalizing r with
  | nil => cases hDrop
  | cons e rest ih =>
    by_cases hFirst : e = .dropped id
    · subst e
      refine (hSound.apply (.dropped id)).not_waiting_applyAll (fun i hi => ?_) hQuiet.2 other
      have hDropped : (r.apply (.dropped id)).futures[id]? = some .abandoned :=
        List.getElem?_set_self h.lt
      obtain ⟨f, hOther⟩ := hSound.apply (.dropped id) i hi
      have hSame : some (i, f) = some (id, filter) := hOther.pending.symm.trans h.pending
      obtain rfl : i = id := congrArg Prod.fst (Option.some.inj hSame)
      rw [hDropped] at hi
      cases hi
    · have hRest : .dropped id ∈ rest := (List.mem_cons.mp hDrop).resolve_left (Ne.symm hFirst)
      exact ih (hSound.apply e) (h.apply hQuiet.1 hFirst) hQuiet.2 hRest

/-- **Every await request is settled exactly once.** Let a request be made in any state that can be
reached. It is pending until the first event that settles it; from then on its outcome is
cancellation if that event is another request, and the object if it is the appearance of one. If it
was dropped before, it never has an outcome, and nobody waits whom the event could complete.

In any such state at most one request is waited for, an event completes at most one request and
completes none unless it settles it, and whoever got an object was the one to get it. -/
theorem requests_settle_once (past : List (Event H)) (filter : ModemFilter) :
    let start := (empty : Registry H).applyAll past
    let made := (start.await filter).1
    let id := (start.await filter).2
    (∀ before, Quiet filter made before → (made.applyAll before).outcome? id = none) ∧
    (∀ before newer after, Quiet filter made before → .dropped id ∉ before ++ after →
      (made.applyAll (before ++ .requested newer :: after)).outcome? id =
        some (.error .cancelled)) ∧
    (∀ before object identity after, Quiet filter made before →
      (made.applyAll before).knows object.path = false → filter.accepts identity = true →
      .dropped id ∉ before ++ after →
      (made.applyAll (before ++ .added object identity :: after)).outcome? id =
        some (.ok object)) ∧
    (∀ events, .dropped id ∈ events → (made.applyAll events).outcome? id = none) ∧
    (∀ before e other, Quiet filter made before → .dropped id ∈ before →
      ¬ (made.applyAll before).Completes e other) ∧
    (∀ i j : RequestId, start.futures[i]? = some .waiting → start.futures[j]? = some .waiting →
      i = j) ∧
    (∀ e i j, start.Completes e i → start.Completes e j → i = j) ∧
    (∀ e i, start.Completes e i → ∃ f, start.Waits i f ∧
      ((∃ newer, e = .requested newer) ∨
        ∃ object identity, e = .added object identity ∧ start.knows object.path = false ∧
          f.accepts identity = true ∧ (identity = "" → f = .any))) ∧
    (∀ i object, start.outcome? i = some (.ok object) →
      ∃ earlier f before identity after,
        past = earlier ++ .requested f :: (before ++ .added object identity :: after) ∧
          MadeAfter earlier before i f ∧
          ((empty : Registry H).applyAll (earlier ++ .requested f :: before)).settles f
            (.added object identity) = true ∧
          .dropped i ∉ after) := by
  intro start made id
  have hSound : start.Sound := sound_applyAll_empty past
  have hMade : made.Sound := hSound.apply (.requested filter)
  have hWaits : made.Waits id filter := by
    rw [show id = start.futures.length from await_snd start filter]
    exact waits_await start filter
  refine ⟨?_, ?_, ?_, ?_, ?_, ?_, ?_, ?_, ?_⟩
  · intro before hQuiet
    exact outcome?_eq_none_of_quiet hWaits hQuiet
  · intro before newer after hQuiet hDrop
    rw [outcome?, future_of_settled hWaits hQuiet rfl hDrop]
    rfl
  · intro before object identity after hQuiet hNew hAccepts hDrop
    refine outcome?_eq_some_ok.mpr (future_of_settled hWaits hQuiet ?_ hDrop)
    exact settles_iff.mpr (.inr ⟨object, identity, rfl, hNew, hAccepts⟩)
  · intro events hDrop
    exact outcome?_eq_none_of_abandoned (abandoned_of_dropped hWaits.lt hDrop)
  · intro before e other hQuiet hDrop hCompletes
    obtain ⟨f, hOther, -⟩ := hCompletes.waits
    exact hMade.not_waiting_of_dropped hWaits hQuiet hDrop other hOther.future
  · intro i j hi hj
    exact hSound.eq_of_waiting hi hj
  · intro e i j hi hj
    obtain ⟨f, hWaitsI, -⟩ := hi.waits
    obtain ⟨g, hWaitsJ, -⟩ := hj.waits
    exact hSound.eq_of_waiting hWaitsI.future hWaitsJ.future
  · intro e i hi
    obtain ⟨f, hWaitsI, hSettles⟩ := hi.waits
    refine ⟨f, hWaitsI, ?_⟩
    rcases settles_iff.mp hSettles with hNewer | ⟨object, identity, he, hNew, hAccepts⟩
    · exact .inl hNewer
    · refine .inr ⟨object, identity, he, hNew, hAccepts, ?_⟩
      rintro rfl
      exact accepts_empty f hAccepts
  · intro i object hi
    exact exists_request_of_resolved (outcome?_eq_some_ok.mp hi)

/-- A request for a modem that is known waits through a further announcement of it, its removal and
the appearance of a modem without an identity, and gets it when it comes back; that it goes again
does not undo this. -/
theorem request_settled_by_return :
    let made : Registry Nat :=
      (((empty : Registry Nat).applyAll [.added ⟨"/0", 0⟩ "7"]).await (.imei "7")).1
    let before : List (Event Nat) :=
      [.added ⟨"/0", 1⟩ "7", .removed "/0", .added ⟨"/1", 2⟩ "", .polled 0]
    Quiet (.imei "7") made before ∧
      (made.applyAll before).knows "/0" = false ∧
      .dropped 0 ∉ before ++ [Event.removed "/0"] ∧
      (made.applyAll (before ++ .added ⟨"/0", 3⟩ "7" :: [.removed "/0"])).outcome? 0 =
        some (.ok ⟨"/0", 3⟩) := by
  intro made before
  have hQuiet : Quiet (.imei "7") made before := by
    refine ⟨?_, ?_, ?_, ?_, trivial⟩ <;> rfl
  have hNew : (made.applyAll before).knows "/0" = false := by rfl
  have hDrop : .dropped 0 ∉ before ++ [Event.removed "/0"] := by simp [before]
  obtain ⟨-, -, hResolved, -⟩ := requests_settle_once [.added ⟨"/0", 0⟩ "7"] (.imei "7")
  exact ⟨hQuiet, hNew, hDrop, hResolved before ⟨"/0", 3⟩ "7" _ hQuiet hNew (by rfl) hDrop⟩

end ModemLink.Registry
