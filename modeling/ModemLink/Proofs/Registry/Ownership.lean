import ModemLink.Proofs.Registry.Requests

/-!
# Who keeps the registry

The managers keep a registry between them, and so does the tracker until it stops, which may be some
time after the last manager is gone. Only through a manager can a request be made, only the tracker
announces and removes objects, and a future can be polled and dropped by whoever has it, also when
nobody keeps the registry any more. When that happens the registry is closed, and whoever still
waits gets the result that a newer request would have brought.

* `Owned.move`, `Owned.run`: what happens to a registry and those who keep it.
* `Owned.move_cases`: everything that a move can do.
* `Owned.cancelled_run_iff`: which requests are cancelled.
* `Owned.exists_newer_of_cancelled`: while there is a manager, only those that were replaced.
-/

namespace ModemLink.Registry

variable {H : Type} {r : Registry H} {id : RequestId} {filter : ModemFilter}

/-! ## Closing -/

theorem futures_close (r : Registry H) : r.close.futures = r.cancelPending.futures := rfl

theorem pending_close (r : Registry H) : r.close.pending = none := by
  show r.cancelPending.pending = none
  unfold cancelPending
  split
  · assumption
  · split <;> rfl

theorem cancelPending_of_none (h : r.pending = none) : r.cancelPending = r := by
  rw [cancelPending, h]

theorem futures_close_close (r : Registry H) : r.close.close.futures = r.close.futures := by
  rw [futures_close r.close, cancelPending_of_none (pending_close r)]

theorem Waits.close (h : r.Waits id filter) : r.close.futures[id]? = some .cancelled := by
  rw [futures_close, cancelPending_of_waits h]
  exact List.getElem?_set_self h.lt

/-- The end of a registry settles the request that waits, and no other. -/
theorem future_close (r : Registry H) (id : RequestId) :
    r.close.futures[id]? = r.futures[id]? ∨
      ∃ filter, r.Waits id filter ∧ r.close.futures[id]? = some .cancelled := by
  by_cases h : ∃ filter, r.Waits id filter
  · obtain ⟨filter, hWaits⟩ := h
    exact .inr ⟨filter, hWaits, hWaits.close⟩
  · exact .inl (futures_cancelPending_get?_of_ne fun filter hWaits => h ⟨filter, hWaits⟩)

theorem Sound.close (h : r.Sound) : r.close.Sound := by
  intro id hWaiting
  rcases future_close r id with hSame | ⟨filter, -, hCancelled⟩
  · obtain ⟨filter, hWaits⟩ := h id (hSame.symm.trans hWaiting)
    rw [hWaits.close] at hWaiting
    cases hWaiting
  · rw [hCancelled] at hWaiting
    cases hWaiting

theorem outcome?_eq_cancelled_iff :
    r.outcome? id = some (.error .cancelled) ↔ r.futures[id]? = some .cancelled := by
  unfold outcome?
  split <;> simp_all

/-! ## Those who keep a registry -/

/-- A registry with those who keep it. -/
structure Owned (H : Type) where
  registry : Registry H
  managers : Nat
  /-- Whether the tracker has not stopped yet. -/
  tracks : Bool

namespace Owned

/-- Something that happens to a registry or to those who keep it. -/
inductive Move (H : Type)
  | happened (e : Event H)
  | cloned
  | dropped
  /-- The tracker stops. -/
  | stopped

variable {s : Owned H} {m : Move H}

def start (r : Registry H) : Owned H := ⟨r, 1, true⟩

def isKept (s : Owned H) : Bool := s.managers != 0 || s.tracks

/-- Whether there is someone who can bring an event about. -/
def permits (s : Owned H) : Event H → Bool
  | .added _ _ => s.tracks
  | .removed _ => s.tracks
  | .requested _ => s.managers != 0
  | .polled _ => true
  | .dropped _ => true

def release (s : Owned H) : Owned H :=
  if s.isKept then s else { s with registry := s.registry.close }

def move (s : Owned H) : Move H → Owned H
  | .happened e => if s.permits e then { s with registry := s.registry.apply e } else s
  | .cloned => if s.managers = 0 then s else { s with managers := s.managers + 1 }
  | .dropped => ({ s with managers := s.managers - 1 } : Owned H).release
  | .stopped => ({ s with tracks := false } : Owned H).release

def run (s : Owned H) (moves : List (Move H)) : Owned H := moves.foldl move s

theorem run_append (s : Owned H) (first rest : List (Move H)) :
    s.run (first ++ rest) = (s.run first).run rest := List.foldl_append

theorem run_concat (s : Owned H) (moves : List (Move H)) (m : Move H) :
    s.run (moves ++ [m]) = (s.run moves).move m := run_append s moves [m]

def Supersedes (s : Owned H) (m : Move H) : Prop :=
  s.managers ≠ 0 ∧ ∃ newer, m = .happened (.requested newer)

/-- The move takes the registry from the last who kept it. -/
def Orphans (s : Owned H) (m : Move H) : Prop := s.isKept = true ∧ (s.move m).isKept = false

/-- Only the pending request can be waited for, and none once nobody keeps the registry. -/
structure Proper (s : Owned H) : Prop where
  sound : s.registry.Sound
  closed : s.isKept = false → s.registry.pending = none

theorem Proper.isKept_of_waits (h : s.Proper) (hWaits : s.registry.Waits id filter) :
    s.isKept = true := by
  cases hKept : s.isKept with
  | true => rfl
  | false => cases hWaits.pending.symm.trans (h.closed hKept)

theorem proper_start (h : r.Sound) : (start r).Proper := ⟨h, nofun⟩

theorem Proper.release (h : s.registry.Sound) : s.release.Proper := by
  unfold Owned.release
  split
  · rename_i hKept
    exact ⟨h, fun hGone => Bool.noConfusion (hKept.symm.trans hGone)⟩
  · exact ⟨h.close, fun _ => pending_close _⟩

theorem isKept_release (s : Owned H) : s.release.isKept = s.isKept := by
  unfold release
  split <;> rfl

theorem managers_release (s : Owned H) : s.release.managers = s.managers := by
  unfold release
  split <;> rfl

/-- An event for which there is nobody any more leaves a closed registry without a request. -/
theorem pending_apply_of_permits (hKept : s.isKept = false) (hNone : s.registry.pending = none)
    {e : Event H} (h : s.permits e = true) : (s.registry.apply e).pending = none := by
  obtain ⟨hManagers, hTracks⟩ : s.managers = 0 ∧ s.tracks = false := by simpa [isKept] using hKept
  cases e with
  | added object identity => simp [permits, hTracks] at h
  | removed path => exact hNone
  | requested newer => simp [permits, hManagers] at h
  | polled other => exact hNone
  | dropped other => exact hNone

/-- Everything that a move can do: an event that someone brings about, nothing, another manager, or
one less of those who keep the registry. -/
theorem move_cases (s : Owned H) (m : Move H) :
    (∃ e, m = .happened e ∧ s.permits e = true ∧
      s.move m = { s with registry := s.registry.apply e }) ∨
    ((∀ e, m = .happened e → s.permits e = false) ∧ s.move m = s) ∨
    (m = .cloned ∧ s.managers ≠ 0 ∧ s.move m = { s with managers := s.managers + 1 }) ∨
    ∃ s' : Owned H, (m = .dropped ∨ m = .stopped) ∧ s'.registry = s.registry ∧
      s'.managers ≤ s.managers ∧ s.move m = s'.release := by
  cases m with
  | happened e =>
    cases hPermits : s.permits e with
    | true => exact .inl ⟨e, rfl, hPermits, if_pos hPermits⟩
    | false =>
      refine .inr (.inl ⟨?_, if_neg (Bool.eq_false_iff.mp hPermits)⟩)
      rintro _ ⟨⟩
      exact hPermits
  | cloned =>
    by_cases hNone : s.managers = 0
    · exact .inr (.inl ⟨nofun, if_pos hNone⟩)
    · exact .inr (.inr (.inl ⟨rfl, hNone, if_neg hNone⟩))
  | dropped =>
    exact .inr (.inr (.inr ⟨{ s with managers := s.managers - 1 }, .inl rfl, rfl,
      Nat.sub_le s.managers 1, rfl⟩))
  | stopped =>
    exact .inr (.inr (.inr ⟨{ s with tracks := false }, .inr rfl, rfl, Nat.le_refl _, rfl⟩))

theorem Proper.move (h : s.Proper) (m : Move H) : (s.move m).Proper := by
  rcases s.move_cases m with ⟨e, -, hPermits, hMove⟩ | ⟨-, hMove⟩ | ⟨-, -, hMove⟩ |
      ⟨s', -, hRegistry, -, hMove⟩
  · rw [hMove]
    exact ⟨h.sound.apply e,
      fun hGone => pending_apply_of_permits (s := s) hGone (h.closed hGone) hPermits⟩
  · rw [hMove]
    exact h
  · rw [hMove]
    exact ⟨h.sound, fun hGone => by simp [isKept] at hGone⟩
  · rw [hMove]
    exact .release (hRegistry ▸ h.sound)

theorem Proper.run (h : s.Proper) (moves : List (Move H)) : (s.run moves).Proper := by
  induction moves generalizing s with
  | nil => exact h
  | cons m rest ih => exact ih (h.move m)

/-! ## What becomes of requests -/

theorem future_release (s : Owned H) (id : RequestId) :
    s.release.registry.futures[id]? = s.registry.futures[id]? ∨
      s.isKept = false ∧ ∃ filter, s.registry.Waits id filter ∧
        s.release.registry.futures[id]? = some .cancelled := by
  unfold release
  split
  · exact .inl rfl
  · rename_i hGone
    rcases future_close s.registry id with hSame | hCancelled
    · exact .inl hSame
    · exact .inr ⟨Bool.eq_false_iff.mpr hGone, hCancelled⟩

/-- A request is cancelled by a move only if it waited and was replaced or left behind. -/
theorem Proper.cancelled_before (h : s.Proper)
    (hNew : (s.move m).registry.futures[id]? = some .cancelled) :
    s.registry.futures[id]? = some .cancelled ∧ m ≠ .happened (.dropped id) ∨
      ∃ filter, s.registry.Waits id filter ∧ (s.Supersedes m ∨ s.Orphans m) := by
  rcases s.move_cases m with ⟨e, rfl, hPermits, hMove⟩ | ⟨hRefused, hMove⟩ | ⟨rfl, -, hMove⟩ |
      ⟨s', hLess, hRegistry, -, hMove⟩
  · rw [hMove] at hNew
    rcases future_apply s.registry e id with hSame | ⟨f, hWaits, hSettles, hVerdict⟩ |
        ⟨f, -, -, hWaiting⟩ | ⟨rfl, -, hDropped⟩
    · refine .inl ⟨hSame.symm.trans hNew, ?_⟩
      rintro ⟨⟩
      have hLt : id < s.registry.futures.length :=
        (List.getElem?_eq_some_iff.mp (hSame.symm.trans hNew)).1
      have hDropped : (s.registry.apply (.dropped id)).futures[id]? = some .abandoned :=
        List.getElem?_set_self hLt
      cases hNew.symm.trans hDropped
    · obtain ⟨newer, rfl⟩ : ∃ newer, e = .requested newer := by
        cases e with
        | requested newer => exact ⟨newer, rfl⟩
        | added object identity => cases hVerdict.symm.trans hNew
        | _ => cases hSettles
      have hManaged : s.managers ≠ 0 := by simpa [permits] using hPermits
      exact .inr ⟨f, hWaits, .inl ⟨hManaged, newer, rfl⟩⟩
    · cases hWaiting.symm.trans hNew
    · cases hDropped.symm.trans hNew
  · rw [hMove] at hNew
    -- Nobody is needed to drop a future, so this is not the move that was refused.
    exact .inl ⟨hNew, fun hDrop => Bool.noConfusion (hRefused _ hDrop)⟩
  · rw [hMove] at hNew
    exact .inl ⟨hNew, nofun⟩
  · rw [hMove] at hNew
    rcases future_release s' id with hSame | ⟨hGone, filter, hWaits, -⟩
    · rw [hSame, hRegistry] at hNew
      exact .inl ⟨hNew, by rintro rfl; simp at hLess⟩
    · rw [hRegistry] at hWaits
      exact .inr ⟨filter, hWaits, .inr ⟨h.isKept_of_waits hWaits,
        by rw [hMove, isKept_release, hGone]⟩⟩

theorem cancelled_of_supersedes (hWaits : s.registry.Waits id filter) (h : s.Supersedes m) :
    (s.move m).registry.futures[id]? = some .cancelled := by
  obtain ⟨hManaged, newer, rfl⟩ := h
  have hPermits : s.permits (.requested newer) = true := by simpa [permits] using hManaged
  simp only [move, hPermits, if_true]
  exact hWaits.future_apply rfl

theorem cancelled_of_orphans (hWaits : s.registry.Waits id filter) (h : s.Orphans m) :
    (s.move m).registry.futures[id]? = some .cancelled := by
  obtain ⟨hKept, hGone⟩ := h
  rcases s.move_cases m with ⟨e, -, -, hMove⟩ | ⟨-, hMove⟩ | ⟨-, -, hMove⟩ |
      ⟨s', -, hRegistry, -, hMove⟩
  · rw [hMove] at hGone
    cases hKept.symm.trans hGone
  · rw [hMove] at hGone
    cases hKept.symm.trans hGone
  · rw [hMove] at hGone
    simp [isKept] at hGone
  · rw [hMove, isKept_release] at hGone
    rw [hMove, release, hGone]
    exact hRegistry ▸ hWaits.close

/-- What has been cancelled stays so until its future is dropped. -/
theorem cancelled_move (h : s.registry.futures[id]? = some .cancelled)
    (hOther : m ≠ .happened (.dropped id)) :
    (s.move m).registry.futures[id]? = some .cancelled := by
  rcases s.move_cases m with ⟨e, rfl, -, hMove⟩ | ⟨-, hMove⟩ | ⟨-, -, hMove⟩ |
      ⟨s', -, hRegistry, -, hMove⟩
  · rw [hMove]
    exact future_apply_of_ne_waiting h nofun fun hDrop => hOther (hDrop ▸ rfl)
  · rw [hMove, h]
  · rw [hMove, h]
  · rw [hMove]
    rcases future_release s' id with hSame | ⟨-, -, -, hCancelled⟩
    · rw [hSame, hRegistry, h]
    · exact hCancelled

theorem cancelled_run (h : s.registry.futures[id]? = some .cancelled) {moves : List (Move H)}
    (hKept : .happened (.dropped id) ∉ moves) :
    (s.run moves).registry.futures[id]? = some .cancelled := by
  induction moves generalizing s with
  | nil => exact h
  | cons m rest ih =>
    have hFirst : m ≠ .happened (.dropped id) := (List.ne_of_not_mem_cons hKept).symm
    exact ih (cancelled_move h hFirst) (List.not_mem_of_not_mem_cons hKept)

/-- A request is cancelled if at some point it waited and was replaced by a newer one, or waited
when the registry was left behind, and its future was not dropped since; and only then. -/
theorem Proper.cancelled_run_iff (h : s.Proper)
    (hNone : s.registry.futures[id]? ≠ some .cancelled) (moves : List (Move H)) :
    (s.run moves).registry.futures[id]? = some .cancelled ↔
      ∃ before m after filter, moves = before ++ m :: after ∧
        (s.run before).registry.Waits id filter ∧
        ((s.run before).Supersedes m ∨ (s.run before).Orphans m) ∧
        .happened (.dropped id) ∉ after := by
  constructor
  · induction moves using List.reverseRecOn with
    | nil => exact fun hCancelled => absurd hCancelled hNone
    | append_singleton moves last ih =>
      -- Either the last move has cancelled the request, or an earlier one and it was left so.
      intro hCancelled
      rw [run_concat] at hCancelled
      rcases (h.run moves).cancelled_before hCancelled with ⟨hOld, hOther⟩ | ⟨filter, hWaits, hEnds⟩
      · obtain ⟨before, m, after, filter, rfl, hWaits, hEnds, hSince⟩ := ih hOld
        exact ⟨before, m, after ++ [last], filter, by simp, hWaits, hEnds,
          by simpa [hSince] using Ne.symm hOther⟩
      · exact ⟨moves, last, [], filter, rfl, hWaits, hEnds, List.not_mem_nil⟩
  · rintro ⟨before, m, after, filter, rfl, hWaits, hEnds, hSince⟩
    rw [run_append]
    refine cancelled_run (s := (s.run before).move m) ?_ hSince
    rcases hEnds with hSuperseded | hOrphaned
    · exact cancelled_of_supersedes hWaits hSuperseded
    · exact cancelled_of_orphans hWaits hOrphaned

/-! ## While there is a manager -/

theorem managers_move (hNone : s.managers = 0) (m : Move H) : (s.move m).managers = 0 := by
  rcases s.move_cases m with ⟨e, -, -, hMove⟩ | ⟨-, hMove⟩ | ⟨-, hManaged, -⟩ |
      ⟨s', -, -, hLess, hMove⟩
  · rw [hMove, hNone]
  · rw [hMove, hNone]
  · exact absurd hNone hManaged
  · rw [hMove, managers_release]
    exact Nat.eq_zero_of_le_zero (hNone ▸ hLess)

theorem managers_run (hNone : s.managers = 0) (moves : List (Move H)) :
    (s.run moves).managers = 0 := by
  induction moves generalizing s with
  | nil => exact hNone
  | cons m rest ih => exact ih (managers_move hNone m)

/-- While there is a manager, a request is cancelled only by a newer one. -/
theorem Proper.exists_newer_of_cancelled (h : s.Proper)
    (hNone : s.registry.futures[id]? ≠ some .cancelled) {moves : List (Move H)}
    (hManaged : (s.run moves).managers ≠ 0)
    (hCancelled : (s.run moves).registry.futures[id]? = some .cancelled) :
    ∃ before newer after filter, moves = before ++ .happened (.requested newer) :: after ∧
      (s.run before).registry.Waits id filter := by
  obtain ⟨before, m, after, filter, rfl, hWaits, hEnds, -⟩ :=
    (h.cancelled_run_iff hNone moves).mp hCancelled
  rcases hEnds with ⟨-, newer, rfl⟩ | ⟨-, hGone⟩
  · exact ⟨before, newer, after, filter, rfl, hWaits⟩
  · have hLeft : ((s.run before).move m).managers = 0 := by
      simp only [isKept, Bool.or_eq_false_iff, bne_eq_false_iff_eq] at hGone
      exact hGone.1
    rw [run_append] at hManaged
    exact absurd (managers_run hLeft after) hManaged

end Owned

end ModemLink.Registry
