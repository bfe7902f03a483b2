import ModemLink.Proofs.Registry.Events

/-!
# Exchanging events

A removal commutes with every event that is not about the same path. So a registry does not depend
on where a removal stands among the events at other paths.

* `apply_removed_comm`: a removal and an event that is not about its path.
* `applyAll_eq_of_filters`: two lists of events that agree without their removals, and agree at
  every path, lead to the same registry.
* `exists_weave`: two lists that agree on their announcements are parts of one list.
-/

namespace ModemLink.Registry

variable {H : Type}

namespace Event

/-- The path that an event is about. -/
def path? : Event H → Option String
  | added object _ => some object.path
  | removed path => some path
  | _ => none

def isAdded : Event H → Bool
  | added _ _ => true
  | _ => false

def isRemoved : Event H → Bool
  | removed _ => true
  | _ => false

/-- Whether an event is about an object. -/
def isChange (e : Event H) : Bool := e.isAdded || e.isRemoved

/-- Whether an event is about the object at a path. -/
def isAt (path : String) (e : Event H) : Bool := e.path? == some path

end Event

theorem list_applyAll {r : Registry H} {events : List (Event H)}
    (h : ∀ e ∈ events, e.isChange = false) : (r.applyAll events).list = r.list := by
  induction events generalizing r with
  | nil => rfl
  | cons e rest ih =>
    obtain ⟨hFirst, hRest⟩ := List.forall_mem_cons.mp h
    rw [applyAll_cons, ih hRest]
    cases e with
    | added object identity => cases hFirst
    | removed path => cases hFirst
    | requested filter => exact congrArg (List.map Entry.object) (known_await r filter)
    | polled id => rfl
    | dropped id => rfl

/-- What happens to requests does not depend on what is known. -/
theorem offer_with_known (r : Registry H) (known : List (Entry H)) (object : Tracked H)
    (identity : String) :
    ({ r with known } : Registry H).offer object identity =
      { r.offer object identity with known } := by
  obtain ⟨old, pending, futures⟩ := r
  unfold offer
  cases pending with
  | none => rfl
  | some p =>
    dsimp only
    split
    · split <;> rfl
    · rfl

theorem cancelPending_with_known (r : Registry H) (known : List (Entry H)) :
    ({ r with known } : Registry H).cancelPending = { r.cancelPending with known } := by
  obtain ⟨old, pending, futures⟩ := r
  unfold cancelPending
  cases pending with
  | none => rfl
  | some p =>
    dsimp only
    split <;> rfl

theorem filter_map_refresh {known : List (Entry H)} (path other identity : String) :
    (known.map fun e => if e.object.path = path then e.refresh identity else e).filter
        (fun e => e.object.path != other) =
      (known.filter fun e => e.object.path != other).map fun e =>
        if e.object.path = path then e.refresh identity else e := by
  rw [List.filter_map]
  congr 1
  refine List.filter_congr fun e _ => ?_
  simp only [Function.comp_apply]
  split <;> simp

theorem apply_removed_comm (r : Registry H) {e : Event H} {path : String}
    (h : e.path? ≠ some path) :
    (r.apply e).apply (.removed path) = (r.apply (.removed path)).apply e := by
  cases e with
  | added object identity =>
    have hNe : object.path ≠ path := fun he => h (congrArg some he)
    have hKnows : (r.remove path).1.knows object.path = r.knows object.path := by
      rw [knows_remove, bne_iff_ne.mpr (Ne.symm hNe), Bool.and_true]
    cases hk : r.knows object.path with
    | true =>
      simp only [apply]
      rw [add_of_knows hk, add_of_knows (hKnows.trans hk)]
      simp only [remove, filter_map_refresh]
    | false =>
      simp only [apply]
      rw [add_of_not_knows hk, add_of_not_knows (hKnows.trans hk)]
      simp only [remove, offer_with_known, List.filter_append]
      simp [hNe]
  | removed other =>
    simp only [apply, remove, List.filter_filter, Bool.and_comm]
  | requested filter =>
    simp only [apply, await, remove, cancelPending_with_known, known_cancelPending]
  | polled id => rfl
  | dropped id => rfl

/-- A removal can be put off until after events that are not about its path. -/
theorem applyAll_removed_comm (r : Registry H) {events : List (Event H)} {path : String}
    (h : ∀ e ∈ events, e.path? ≠ some path) :
    (r.applyAll events).apply (.removed path) = (r.apply (.removed path)).applyAll events := by
  induction events generalizing r with
  | nil => rfl
  | cons e rest ih =>
    have hRest : ∀ d ∈ rest, d.path? ≠ some path := fun d hd => h d (List.mem_cons_of_mem e hd)
    rw [applyAll_cons, ih _ hRest, applyAll_cons,
      apply_removed_comm r (h e List.mem_cons_self)]

/-- An event that is not a removal can be brought forward over removals at other paths. -/
theorem applyAll_removals_comm (r : Registry H) {events : List (Event H)} {e : Event H}
    (h : ∀ d ∈ events, ∃ path, d = .removed path ∧ e.path? ≠ some path) :
    (r.applyAll events).apply e = (r.apply e).applyAll events := by
  induction events generalizing r with
  | nil => rfl
  | cons d rest ih =>
    obtain ⟨path, rfl, hNe⟩ := h d List.mem_cons_self
    rw [applyAll_cons, ih _ fun x hx => h x (List.mem_cons_of_mem _ hx), applyAll_cons,
      apply_removed_comm r hNe]

/-! ## Lists of events that lead to the same registry -/

/-- An element can be taken out of two lists, of one at the front, if nothing stands before it that
is picked together with it. -/
theorem filter_cons_eq_iff {α : Type} {picks : α → Bool} {before : List α} {x : α}
    (h : picks x = true → before.filter picks = []) (after list : List α) :
    (x :: list).filter picks = (before ++ x :: after).filter picks ↔
      list.filter picks = (before ++ after).filter picks := by
  cases hx : picks x with
  | false => simp [hx]
  | true => simp [hx, h hx]

namespace Event

theorem exists_removed {e : Event H} (h : e.isRemoved = true) : ∃ path, e = .removed path := by
  cases e with
  | removed path => exact ⟨path, rfl⟩
  | _ => cases h

theorem isChange_of_isAdded {e : Event H} (h : e.isAdded = true) : e.isChange = true := by
  rw [isChange, h, Bool.true_or]

theorem isChange_of_isAt {e : Event H} {path : String} (h : e.isAt path = true) :
    e.isChange = true := by
  cases e with
  | added object identity => rfl
  | removed gone => rfl
  | _ => cases h

/-- To pick among the changes is to pick among all, if nothing but changes is picked. -/
theorem filter_isChange {picks : Event H → Bool} (h : ∀ e, picks e = true → e.isChange = true)
    (events : List (Event H)) : (events.filter isChange).filter picks = events.filter picks := by
  rw [List.filter_filter]
  refine List.filter_congr fun e _ => ?_
  cases hPicks : picks e with
  | false => rfl
  | true => rw [h e hPicks, Bool.true_and]

end Event

open Event

theorem applyAll_bring_forward {r : Registry H} {before : List (Event H)} {e : Event H}
    (h : (r.applyAll before).apply e = (r.apply e).applyAll before) (after : List (Event H)) :
    r.applyAll (before ++ e :: after) = (r.apply e).applyAll (before ++ after) := by
  rw [applyAll_append, applyAll_cons, h, ← applyAll_append]

/-- **Exchange.** Lists of events that are the same apart from removals, and the same at every path,
lead to the same registry. -/
theorem applyAll_eq_of_filters (r : Registry H) {first second : List (Event H)}
    (hKept : first.filter (!·.isRemoved) = second.filter (!·.isRemoved))
    (hPath : ∀ path, first.filter (isAt path) = second.filter (isAt path)) :
    r.applyAll first = r.applyAll second := by
  induction first generalizing r second with
  | nil =>
    cases second with
    | nil => rfl
    | cons e rest =>
      cases hRemoved : e.isRemoved with
      | false => simp [hRemoved] at hKept
      | true =>
        obtain ⟨path, rfl⟩ := exists_removed hRemoved
        simpa [isAt, path?] using hPath path
  | cons e first ih =>
    cases hRemoved : e.isRemoved with
    | true =>
      obtain ⟨path, rfl⟩ := exists_removed hRemoved
      have hSelf : isAt path (removed path : Event H) = true := by simp [isAt, path?]
      -- the same removal stands in `second`, with nothing at its path before it
      have hAt := hPath path
      rw [List.filter_cons_of_pos hSelf] at hAt
      obtain ⟨u, v, rfl, hu, -, -⟩ := List.filter_eq_cons_iff.mp hAt.symm
      have hComm : ∀ d ∈ u, d.path? ≠ some path := fun d hd he => hu d hd (by simp [isAt, he])
      rw [applyAll_bring_forward (applyAll_removed_comm r hComm), applyAll_cons]
      refine ih _ ((filter_cons_eq_iff ?_ v first).mp hKept) fun other =>
        (filter_cons_eq_iff ?_ v first).mp (hPath other)
      · intro hIs
        cases hIs
      · intro hAt
        obtain rfl : path = other := by simpa [isAt, path?] using hAt
        exact List.filter_eq_nil_iff.mpr hu
    | false =>
      -- the same event stands in `second`, with only removals at other paths before it
      have hFirst := hKept
      rw [List.filter_cons_of_pos (by simp [hRemoved])] at hFirst
      obtain ⟨u, v, rfl, hu, -, -⟩ := List.filter_eq_cons_iff.mp hFirst.symm
      have hComm : ∀ d ∈ u, ∃ path, d = .removed path ∧ e.path? ≠ some path := by
        intro d hd
        obtain ⟨path, rfl⟩ := exists_removed (e := d) (by simpa using hu d hd)
        refine ⟨path, rfl, fun he => ?_⟩
        have hAt := hPath path
        rw [List.filter_cons_of_pos (by simp [isAt, he]), List.filter_append] at hAt
        cases hu' : u.filter (isAt path) with
        | nil => exact List.filter_eq_nil_iff.mp hu' _ hd (by simp [isAt, path?])
        | cons x rest =>
          rw [hu', List.cons_append] at hAt
          have hMem : e ∈ u := by
            rw [(List.cons.inj hAt).1]
            exact (List.mem_filter.mp (hu' ▸ List.mem_cons_self)).1
          exact hu e hMem (by simp [hRemoved])
      rw [applyAll_bring_forward (applyAll_removals_comm r hComm), applyAll_cons]
      refine ih _ ((filter_cons_eq_iff ?_ v first).mp hKept) fun path =>
        (filter_cons_eq_iff ?_ v first).mp (hPath path)
      · intro _
        exact List.filter_eq_nil_iff.mpr hu
      · intro hAt
        refine List.filter_eq_nil_iff.mpr fun d hd hd' => ?_
        obtain ⟨other, rfl, hNe⟩ := hComm d hd
        obtain rfl : other = path := by simpa [isAt, path?] using hd'
        exact hNe (by simpa [isAt] using hAt)

/-! ## Another order of the changes -/

/-- Two lists that agree on their announcements, one without removals and one with nothing else, are
the parts of one list. -/
theorem exists_weave {kept changes : List (Event H)} (hKept : ∀ e ∈ kept, e.isRemoved = false)
    (hChanges : ∀ e ∈ changes, e.isChange = true)
    (hAdded : kept.filter isAdded = changes.filter isAdded) :
    ∃ all : List (Event H), all.filter (!·.isRemoved) = kept ∧ all.filter isChange = changes := by
  induction kept generalizing changes with
  | nil =>
    have hRemovals : ∀ e ∈ changes, e.isAdded = false := by
      intro e he
      simpa using List.filter_eq_nil_iff.mp hAdded.symm e he
    refine ⟨changes, List.filter_eq_nil_iff.mpr fun e he => ?_, List.filter_eq_self.mpr hChanges⟩
    simpa [isChange, hRemovals e he] using hChanges e he
  | cons e kept ih =>
    have hHead := hKept e List.mem_cons_self
    have hTail : ∀ d ∈ kept, d.isRemoved = false := fun d hd => hKept d (List.mem_cons_of_mem e hd)
    cases hIs : e.isAdded with
    | false =>
      rw [List.filter_cons_of_neg (by simp [hIs])] at hAdded
      obtain ⟨all, hAllKept, hAllChanges⟩ := ih hTail hChanges hAdded
      exact ⟨e :: all, by simp [hHead, hAllKept], by simp [isChange, hIs, hHead, hAllChanges]⟩
    | true =>
      rw [List.filter_cons_of_pos hIs] at hAdded
      obtain ⟨u, v, rfl, hu, -, hv⟩ := List.filter_eq_cons_iff.mp hAdded.symm
      obtain ⟨all, hAllKept, hAllChanges⟩ :=
        ih hTail (fun d hd => hChanges d (List.mem_append_right u (List.mem_cons_of_mem e hd)))
          hv.symm
      have hRemovals : ∀ d ∈ u, d.isChange = true ∧ d.isRemoved = true := by
        intro d hd
        have hChange := hChanges d (List.mem_append_left _ hd)
        refine ⟨hChange, ?_⟩
        simpa [isChange, hu d hd] using hChange
      refine ⟨u ++ e :: all, ?_, ?_⟩
      · rw [List.filter_append, List.filter_eq_nil_iff.mpr fun d hd => by simp [hRemovals d hd]]
        simp [hHead, hAllKept]
      · rw [List.filter_append, List.filter_eq_self.mpr fun d hd => (hRemovals d hd).1]
        simp [isChange, hIs, hAllChanges]

/-- The changes among some events can be put into any other order that is the same for
announcements, and the same at every path; whatever else happens keeps its order. -/
theorem exists_reordered (r : Registry H) {actual changes : List (Event H)}
    (hChanges : ∀ e ∈ changes, e.isChange = true)
    (hAdded : actual.filter isAdded = changes.filter isAdded)
    (hPath : ∀ path, actual.filter (isAt path) = changes.filter (isAt path)) :
    ∃ all : List (Event H), r.applyAll actual = r.applyAll all ∧ all.filter isChange = changes ∧
      all.filter (!·.isChange) = actual.filter (!·.isChange) := by
  have hNoRemoval : ∀ e ∈ actual.filter (!·.isRemoved), e.isRemoved = false := by simp
  have hSameAdded : (actual.filter (!·.isRemoved)).filter isAdded = changes.filter isAdded := by
    rw [← hAdded, List.filter_filter]
    refine List.filter_congr fun e _ => ?_
    cases e <;> rfl
  obtain ⟨all, hKept, hAll⟩ := exists_weave hNoRemoval hChanges hSameAdded
  have hNot : ∀ l : List (Event H),
      (l.filter (!·.isRemoved)).filter (!·.isChange) = l.filter (!·.isChange) := by
    intro l
    rw [List.filter_filter]
    refine List.filter_congr fun e _ => ?_
    cases e <;> rfl
  refine ⟨all, applyAll_eq_of_filters r hKept.symm fun path => ?_, hAll, ?_⟩
  · rw [← filter_isChange (fun _ => isChange_of_isAt) all, hAll, hPath path]
  · rw [← hNot all, hKept, hNot actual]

end ModemLink.Registry
