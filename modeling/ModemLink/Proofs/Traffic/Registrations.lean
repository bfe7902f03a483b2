import ModemLink.Proofs.Session.Registrations
import ModemLink.Traffic.Scripted

/-!
# One slot, many registrations

Traffic observers are registered in one slot, one after the other. A registration sets the rate,
asks for the refreshes once the rate is set, and has the slot once it has both. The observer that
has the slot when a registration settles does all of its readings then. Until that happens it has
not begun, and the next registration that succeeds puts an end to it.

* `Script.readings`: what an observer does when it runs.
* `Holds`, `Waits`, `Runs`: which observer has the slot, whether it has begun, and when it runs.
* `running?_slotAfter`: the slot after some registrations.
* `registrations_run_last_holder`: what each registration asks, and who runs with it.
-/

namespace ModemLink.Traffic.Scripted

open Observer (Slot Work)

/-! ## What a script says -/

namespace Script

/-- The result of a registration. -/
def result (s : Script) : Except Error Unit :=
  if s.failRate then .error .timeout
  else if s.failRefreshes then .error (.keyNotFound "refreshes")
  else .ok ()

/-- What a registration asks before its observer has the slot. -/
def asks (s : Script) : List Entry :=
  .asked (.rate s.interface s.interval) ::
    if s.failRate then [] else [.asked (.refreshes s.interface)]

/-- The counters that one of the readings gives, if it succeeds. -/
def reading? (s : Script) (i : Nat) : Option TrafficStats := s.replies[i]?.join

/-- The reply to one of the readings. -/
def reply (s : Script) (i : Nat) : Reply :=
  match s.reading? i with
  | some stats => .ok stats
  | none => .error (.keyNotFound s.interface)

/-- What an observer at a place does when it runs: one reading for each refresh, and after each
reading that succeeds one delivery of what was read. -/
def readings (s : Script) (place : Nat) : List Entry :=
  (List.range s.refreshes).flatMap fun i =>
    .asked (.read s.interface) :: ((s.reading? i).map (Entry.delivered place)).toList

/-- The script after a reading. -/
def rest (s : Script) : Script := { s with replies := s.replies.tail }

/-- The observer that a registration at a place brings about. -/
def observer (s : Script) (place : Nat) : Observed :=
  ⟨place, ⟨onRefresh provider s.interface, List.replicate s.refreshes (), [], true⟩, s⟩

variable {s : Script} {place n : Nat} {stats : TrafficStats}

theorem reading?_rest (s : Script) (i : Nat) : s.rest.reading? i = s.reading? (i + 1) := by
  simp [reading?, rest]

theorem delivered_mem_readings (h : .delivered n stats ∈ s.readings place) :
    n = place ∧ ∃ i, i < s.refreshes ∧ s.reading? i = some stats := by
  obtain ⟨i, hRange, hMem⟩ := List.mem_flatMap.mp h
  rcases List.mem_cons.mp hMem with hAsked | hDelivered
  · cases hAsked
  · obtain ⟨read, hRead, hEntry⟩ := Option.map_eq_some_iff.mp (Option.mem_toList.mp hDelivered)
    cases hEntry
    exact ⟨rfl, i, List.mem_range.mp hRange, hRead⟩

theorem delivered_not_mem_asks (s : Script) (n : Nat) (stats : TrafficStats) :
    .delivered n stats ∉ s.asks := by
  unfold asks
  split <;> simp

/-! ## What its provider does -/

theorem run_prepare (s : Script) :
    let outcome := (prepare provider s.interface s.interval).run answer true s
    outcome.result = s.result ∧ outcome.state = s ∧
      (outcome.trace.map fun t => Entry.asked t.1) = s.asks := by
  unfold result asks
  cases hRate : s.failRate <;> cases hRefreshes : s.failRefreshes <;>
    simp [prepare, provider, Program.asking, Program.bind, Program.run, Program.ofExcept, answer,
      hRate, hRefreshes]

theorem run_read (s : Script) : (provider.read s.interface).run answer true s =
    ⟨s.reply 0, s.rest, [(.read s.interface, s.reply 0)]⟩ := by
  obtain ⟨interface, interval, replies, refreshes, failRate, failRefreshes, settles⟩ := s
  rcases replies with _ | ⟨_ | stats, later⟩ <;> rfl

/-- Every refresh takes the next reply of the script. -/
theorem runNotices_onRefresh (s : Script) (n : Nat) :
    (Work.runNotices (onRefresh provider s.interface) answer true (List.replicate n ()) s).1 =
      (List.range n).flatMap fun i =>
        .asked (.read s.interface) :: ((s.reading? i).map .delivered).toList := by
  induction n generalizing s with
  | zero => rfl
  | succ n ih =>
    have hLater := ih s.rest
    simp only [reading?_rest] at hLater
    rw [List.range_succ_eq_map, List.flatMap_cons, List.flatMap_map]
    simp only [List.replicate_succ, Work.runNotices, onRefresh, Work.runReadings, run_read]
    refine congrArg₂ (· ++ ·) ?_ hLater
    unfold reply
    cases s.reading? 0 <;> rfl

theorem log_observer (s : Script) (place : Nat) : (s.observer place).log = s.readings place := by
  have hRun := runNotices_onRefresh s s.refreshes
  simp only [Observed.log, observer, Work.run, Work.runReadings, List.nil_append, hRun, readings,
    List.map_flatMap]
  refine List.flatMap_congr fun i _ => ?_
  cases s.reading? i <;> rfl

end Script

/-! ## One registration -/

variable {slot : Slot Observed} {place : Nat} {s : Script}

/-- The slot once a registration has been prepared. -/
def take (slot : Slot Observed) (place : Nat) (s : Script) : Slot Observed :=
  match s.result with
  | .ok () => slot.register (s.observer place)
  | .error _ => slot

theorem running?_take_of_ok (h : s.result = .ok ()) :
    (take slot place s).running? = some (s.observer place) := by
  rw [take, h]
  exact Slot.running?_register slot _

theorem take_of_not_ok (h : s.result ≠ .ok ()) : take slot place s = slot := by
  unfold take
  split
  · rename_i hOk
    exact absurd hOk h
  · rfl

/-- The observer that has the slot runs to its end if the registration settles, and does nothing
otherwise. -/
theorem register_eq (slot : Slot Observed) (place : Nat) (s : Script) :
    (register slot place s).2 = (s.result, s.asks ++
      if s.settles then ((take slot place s).running?.map Observed.log).getD [] else []) ∧
    (register slot place s).1.running? =
      if s.settles then none else (take slot place s).running? := by
  obtain ⟨hResult, hState, hAsked⟩ := s.run_prepare
  unfold register take
  simp only [hResult, hState, hAsked]
  cases s.result with
  | ok u =>
    cases s.settles <;>
      simp [Slot.running?_register, Slot.running?_finish, Script.observer]
  | error e =>
    cases hRuns : slot.running? <;> cases s.settles <;> simp [hRuns, Slot.running?_finish]

/-! ## All of them -/

/-- The slot after registrations in turn, from a place of the list on. -/
def slotFrom (slot : Slot Observed) (place : Nat) : List Script → Slot Observed
  | [] => slot
  | s :: rest => slotFrom (register slot place s).1 (place + 1) rest

/-- The slot after some registrations. -/
def slotAfter (scripts : List Script) : Slot Observed := slotFrom .empty 0 scripts

theorem slotFrom_concat (slot : Slot Observed) (place : Nat) (before : List Script) (s : Script) :
    slotFrom slot place (before ++ [s]) =
      (register (slotFrom slot place before) (place + before.length) s).1 := by
  induction before generalizing slot place with
  | nil => rfl
  | cons first before ih =>
    rw [List.cons_append, slotFrom, ih, List.length_cons, Nat.add_right_comm, Nat.add_assoc]
    rfl

theorem length_registerFrom (slot : Slot Observed) (place : Nat) (scripts : List Script) :
    (registerFrom slot place scripts).length = scripts.length := by
  induction scripts generalizing slot place with
  | nil => rfl
  | cons first rest ih => simp only [registerFrom, List.length_cons, ih]

theorem getElem?_registerFrom (slot : Slot Observed) (place : Nat) (scripts : List Script)
    (i : Nat) : (registerFrom slot place scripts)[i]? =
      scripts[i]?.map fun s =>
        (register (slotFrom slot place (scripts.take i)) (place + i) s).2 := by
  induction scripts generalizing slot place i with
  | nil => rfl
  | cons first rest ih =>
    cases i with
    | zero => rfl
    | succ i =>
      simp only [registerFrom, List.getElem?_cons_succ, ih, List.take_succ_cons, slotFrom]
      rw [Nat.add_right_comm, Nat.add_assoc]

theorem getElem?_registerAll {scripts : List Script} {i : Nat} {s : Script}
    (h : scripts[i]? = some s) :
    (registerAll scripts)[i]? = some (register (slotAfter (scripts.take i)) i s).2 := by
  rw [registerAll, getElem?_registerFrom, h, Nat.zero_add]
  rfl

theorem slotAfter_take_succ {scripts : List Script} {i : Nat} {s : Script}
    (h : scripts[i]? = some s) : slotAfter (scripts.take (i + 1)) =
      (register (slotAfter (scripts.take i)) i s).1 := by
  obtain ⟨hLt, rfl⟩ := List.getElem?_eq_some_iff.mp h
  rw [List.take_succ_eq_append_getElem hLt, slotAfter, slotFrom_concat, Nat.zero_add,
    List.length_take_of_le (Nat.le_of_lt hLt)]
  rfl

/-! ## Who has the slot -/

/-- After the first `n` registrations the observer of place `j` has the slot: it was registered, and
none has been registered since. -/
structure Holds (scripts : List Script) (n j : Nat) (r : Script) : Prop where
  lt : j < n
  script : scripts[j]? = some r
  registered : r.result = .ok ()
  last : ∀ k s, j < k → k < n → scripts[k]? = some s → s.result ≠ .ok ()

/-- None of the registrations from place `j` on has settled when the one at place `n` comes. -/
def Waits (scripts : List Script) (n j : Nat) : Prop :=
  ∀ k s, j ≤ k → k < n → scripts[k]? = some s → s.settles = false

/-- The observer of place `j` runs with the registration at place `i`: that one settles, and the
observer has the slot and has waited until then. -/
structure Runs (scripts : List Script) (i j : Nat) (r : Script) : Prop where
  holds : Holds scripts (i + 1) j r
  waits : Waits scripts i j
  settles : ∃ s, scripts[i]? = some s ∧ s.settles = true

variable {scripts : List Script} {i j n : Nat} {r : Script}

theorem holds_succ_iff (h : scripts[n]? = some s) : Holds scripts (n + 1) j r ↔
    s.result = .ok () ∧ j = n ∧ r = s ∨ s.result ≠ .ok () ∧ Holds scripts n j r := by
  constructor
  · intro hHolds
    rcases Nat.lt_succ_iff_lt_or_eq.mp hHolds.lt with hLt | rfl
    · exact .inr ⟨hHolds.last n s hLt (Nat.lt_succ_self n) h, hLt, hHolds.script,
        hHolds.registered, fun k t hAfter hBefore =>
          hHolds.last k t hAfter (Nat.lt_succ_of_lt hBefore)⟩
    · obtain rfl : r = s := Option.some.inj (hHolds.script.symm.trans h)
      exact .inl ⟨hHolds.registered, rfl, rfl⟩
  · rintro (⟨hOk, rfl, rfl⟩ | ⟨hFails, hHolds⟩)
    · exact ⟨Nat.lt_succ_self j, h, hOk, fun k t hAfter hBefore => by omega⟩
    · refine ⟨Nat.lt_succ_of_lt hHolds.lt, hHolds.script, hHolds.registered,
        fun k t hAfter hBefore hScript => ?_⟩
      rcases Nat.lt_succ_iff_lt_or_eq.mp hBefore with hLt | rfl
      · exact hHolds.last k t hAfter hLt hScript
      · obtain rfl : s = t := Option.some.inj (h.symm.trans hScript)
        exact hFails

theorem waits_succ_iff (h : scripts[n]? = some s) (hLe : j ≤ n) :
    Waits scripts (n + 1) j ↔ Waits scripts n j ∧ s.settles = false := by
  constructor
  · exact fun hWaits => ⟨fun k t hFrom hBefore => hWaits k t hFrom (Nat.lt_succ_of_lt hBefore),
      hWaits n s hLe (Nat.lt_succ_self n) h⟩
  · rintro ⟨hWaits, hStays⟩ k t hFrom hBefore hScript
    rcases Nat.lt_succ_iff_lt_or_eq.mp hBefore with hLt | rfl
    · exact hWaits k t hFrom hLt hScript
    · obtain rfl : s = t := Option.some.inj (h.symm.trans hScript)
      exact hStays

/-- A registration that succeeds gives the slot to its observer, any other leaves it alone. -/
theorem running?_take_iff {o : Observed} (h : scripts[n]? = some s)
    (hBefore : ∀ o, slot.running? = some o ↔
      ∃ j r, Holds scripts n j r ∧ Waits scripts n j ∧ o = r.observer j) :
    (take slot n s).running? = some o ↔
      ∃ j r, Holds scripts (n + 1) j r ∧ Waits scripts n j ∧ o = r.observer j := by
  simp only [holds_succ_iff h]
  by_cases hEnd : s.result = .ok ()
  · rw [running?_take_of_ok hEnd]
    constructor
    · intro hObserver
      exact ⟨n, s, .inl ⟨hEnd, rfl, rfl⟩, fun k t hFrom hLt => by omega,
        (Option.some.inj hObserver).symm⟩
    · rintro ⟨j, r, ⟨-, rfl, rfl⟩ | ⟨hFails, -⟩, -, rfl⟩
      · rfl
      · exact absurd hEnd hFails
  · rw [take_of_not_ok hEnd, hBefore]
    simp [hEnd]

/-- The slot has the observer that was registered last, unless it has run. -/
theorem running?_slotAfter (hLe : n ≤ scripts.length) (o : Observed) :
    (slotAfter (scripts.take n)).running? = some o ↔
      ∃ j r, Holds scripts n j r ∧ Waits scripts n j ∧ o = r.observer j := by
  induction n generalizing o with
  | zero =>
    refine ⟨nofun, ?_⟩
    rintro ⟨j, r, hHolds, -, -⟩
    exact absurd hHolds.lt (Nat.not_lt_zero j)
  | succ n ih =>
    have hScript : scripts[n]? = some scripts[n] := List.getElem?_eq_getElem hLe
    have hTaken := fun o => running?_take_iff (o := o) hScript (ih (Nat.le_of_lt hLe))
    rw [slotAfter_take_succ hScript, (register_eq _ _ _).2]
    cases hSettles : scripts[n].settles with
    | false =>
      rw [if_neg Bool.false_ne_true, hTaken]
      refine exists_congr fun j => exists_congr fun r => and_congr_right fun hHolds => ?_
      rw [waits_succ_iff hScript (Nat.le_of_lt_succ hHolds.lt), hSettles]
      simp
    | true =>
      refine ⟨nofun, ?_⟩
      rintro ⟨j, r, hHolds, hWaits, -⟩
      have hStays := ((waits_succ_iff hScript (Nat.le_of_lt_succ hHolds.lt)).mp hWaits).2
      rw [hSettles] at hStays
      cases hStays

/-! ## Who runs -/

/-- The log of a registration ends with all that its observer does, or whichever runs with it. -/
theorem getElem?_registerAll_eq (h : scripts[i]? = some s) :
    ∃ log, (registerAll scripts)[i]? = some (s.result, s.asks ++ log) ∧
      (∀ j r, Runs scripts i j r → log = r.readings j) ∧
      ((∀ j r, ¬ Runs scripts i j r) → log = []) := by
  have hLe : i ≤ scripts.length := Nat.le_of_lt (List.getElem?_eq_some_iff.mp h).1
  have hTaken := fun o => running?_take_iff (o := o) h (running?_slotAfter hLe)
  refine ⟨_, (getElem?_registerAll h).trans (congrArg some (register_eq _ _ _).1), ?_, ?_⟩
  · rintro j r ⟨hHolds, hWaits, t, hScript, hSettles⟩
    obtain rfl : s = t := Option.some.inj (h.symm.trans hScript)
    rw [if_pos hSettles, (hTaken _).mpr ⟨j, r, hHolds, hWaits, rfl⟩]
    exact r.log_observer j
  · intro hNone
    by_cases hSettles : s.settles = true
    · rw [if_pos hSettles]
      cases hRuns : (take (slotAfter (scripts.take i)) i s).running? with
      | none => rfl
      | some o =>
        obtain ⟨j, r, hHolds, hWaits, -⟩ := (hTaken o).mp hRuns
        exact absurd ⟨hHolds, hWaits, s, h, hSettles⟩ (hNone j r)
    · exact if_neg hSettles

theorem Runs.unique {i' : Nat} {r' : Script} (h : Runs scripts i j r) (h' : Runs scripts i' j r') :
    i = i' := by
  obtain ⟨s, hScript, hSettles⟩ := h.settles
  obtain ⟨s', hScript', hSettles'⟩ := h'.settles
  obtain hLt | hEq | hGt := Nat.lt_trichotomy i i'
  · have hStays := h'.waits i s (Nat.le_of_lt_succ h.holds.lt) hLt hScript
    rw [hSettles] at hStays
    cases hStays
  · exact hEq
  · have hStays := h.waits i' s' (Nat.le_of_lt_succ h'.holds.lt) hGt hScript'
    rw [hSettles'] at hStays
    cases hStays

/-- An observer that is replaced while it waits never runs. -/
theorem not_runs_of_replaced {k : Nat} (h : scripts[k]? = some s) (hLt : j < k)
    (hOk : s.result = .ok ()) (hWaits : Waits scripts k j) : ¬ Runs scripts i j r := by
  intro hRuns
  obtain ⟨t, hScript, hSettles⟩ := hRuns.settles
  rcases Nat.lt_or_ge i k with hBefore | hAfter
  · have hStays := hWaits i t (Nat.le_of_lt_succ hRuns.holds.lt) hBefore hScript
    rw [hSettles] at hStays
    cases hStays
  · exact hRuns.holds.last k s hLt (Nat.lt_succ_of_le hAfter) h hOk

/-- An observer waits as long as nothing settles. -/
theorem waits_or_settles (scripts : List Script) (j n : Nat) : Waits scripts n j ∨
    ∃ i, j ≤ i ∧ i < n ∧ Waits scripts i j ∧ ∃ s, scripts[i]? = some s ∧ s.settles = true := by
  induction n with
  | zero => exact .inl fun k _ _ hLt => absurd hLt (Nat.not_lt_zero k)
  | succ n ih =>
    rcases ih with hWaits | ⟨i, hFrom, hLt, hSettles⟩
    · by_cases hNow : j ≤ n ∧ ∃ s, scripts[n]? = some s ∧ s.settles = true
      · exact .inr ⟨n, hNow.1, Nat.lt_succ_self n, hWaits, hNow.2⟩
      · refine .inl fun k s hFrom hLt hScript => ?_
        rcases Nat.lt_succ_iff_lt_or_eq.mp hLt with hBefore | rfl
        · exact hWaits k s hFrom hBefore hScript
        · exact Bool.eq_false_iff.mpr fun hSettles => hNow ⟨hFrom, s, hScript, hSettles⟩
    · exact .inr ⟨i, hFrom, Nat.lt_succ_of_lt hLt, hSettles⟩

/-- The last observer that is registered runs as soon as a registration settles. -/
theorem runs_or_waits (h : scripts[j]? = some r) (hOk : r.result = .ok ())
    (hLast : ∀ k s, j < k → scripts[k]? = some s → s.result ≠ .ok ()) :
    (∃ i, Runs scripts i j r) ∨ (slotAfter scripts).running? = some (r.observer j) := by
  have hHolds : ∀ n, j < n → Holds scripts n j r :=
    fun n hLt => ⟨hLt, h, hOk, fun k s hAfter _ => hLast k s hAfter⟩
  rcases waits_or_settles scripts j scripts.length with hWaits | ⟨i, hFrom, -, hWaits, hSettles⟩
  · have hSlot := (running?_slotAfter (Nat.le_refl scripts.length) (r.observer j)).mpr
      ⟨j, r, hHolds _ (List.getElem?_eq_some_iff.mp h).1, hWaits, rfl⟩
    rw [List.take_length] at hSlot
    exact .inr hSlot
  · exact .inl ⟨i, hHolds (i + 1) (Nat.lt_succ_of_le hFrom), hWaits, hSettles⟩

/-- Nobody is told anything but the observer that runs, and this one only what it has read. -/
theorem exists_runs_of_delivered {result : Except Error Unit} {log : List Entry}
    {stats : TrafficStats} (h : (registerAll scripts)[i]? = some (result, log))
    (hMem : .delivered n stats ∈ log) :
    ∃ r, Runs scripts i n r ∧ ∃ m, m < r.refreshes ∧ r.reading? m = some stats := by
  obtain ⟨s, hScript, -⟩ := Option.map_eq_some_iff.mp ((getElem?_registerFrom _ _ _ _).symm.trans h)
  obtain ⟨ran, hEntry, hRan, hNone⟩ := getElem?_registerAll_eq hScript
  obtain ⟨-, rfl⟩ := Prod.mk.inj (Option.some.inj (h.symm.trans hEntry))
  have hDelivered : .delivered n stats ∈ ran :=
    (List.mem_append.mp hMem).resolve_left (s.delivered_not_mem_asks n stats)
  by_cases hRuns : ∃ j r, Runs scripts i j r
  · obtain ⟨j, r, hRuns⟩ := hRuns
    rw [hRan j r hRuns] at hDelivered
    obtain ⟨rfl, m, hLt, hRead⟩ := Script.delivered_mem_readings hDelivered
    exact ⟨r, hRuns, m, hLt, hRead⟩
  · rw [hNone fun j r hRun => hRuns ⟨j, r, hRun⟩] at hDelivered
    cases hDelivered

/-- **Observers take their turns in a slot.** Every registration sets the rate, asks for the
refreshes if the rate is set, and succeeds if it has both. If it settles, then the observer that has
the slot does all of its readings, each with its delivery, unless it has done so before; nothing
else happens with a registration. So an observer runs at most once. One that is replaced while it
waits never runs, and one that is followed by failures alone has run in full, or still has the slot
with all of its readings ahead. What is delivered to an observer it has read itself. -/
theorem registrations_run_last_holder (scripts : List Script) :
    (registerAll scripts).length = scripts.length ∧
      (∀ i s, scripts[i]? = some s →
        ∃ log, (registerAll scripts)[i]? = some (s.result, s.asks ++ log) ∧
          (∀ j r, Runs scripts i j r → log = r.readings j) ∧
          ((∀ j r, ¬ Runs scripts i j r) → log = [])) ∧
      (∀ i i' j r r', Runs scripts i j r → Runs scripts i' j r' → i = i') ∧
      (∀ j k s, scripts[k]? = some s → j < k → s.result = .ok () → Waits scripts k j →
        ∀ i r, ¬ Runs scripts i j r) ∧
      (∀ j r, scripts[j]? = some r → r.result = .ok () →
        (∀ k s, j < k → scripts[k]? = some s → s.result ≠ .ok ()) →
        (∃ i, Runs scripts i j r) ∨
          ∃ o, (slotAfter scripts).running? = some o ∧ o.log = r.readings j) ∧
      ∀ i result log n stats, (registerAll scripts)[i]? = some (result, log) →
        .delivered n stats ∈ log →
        ∃ r, Runs scripts i n r ∧ ∃ m, m < r.refreshes ∧ r.reading? m = some stats := by
  refine ⟨?_, fun i s h => getElem?_registerAll_eq h, fun i i' j r r' h h' => h.unique h',
    fun j k s h hLt hOk hWaits i r => not_runs_of_replaced h hLt hOk hWaits, ?_,
    fun i result log n stats h hMem => exists_runs_of_delivered h hMem⟩
  · exact length_registerFrom .empty 0 scripts
  · intro j r h hOk hLast
    exact (runs_or_waits h hOk hLast).imp_right fun hSlot => ⟨_, hSlot, r.log_observer j⟩

/-- The first of these is replaced before it runs, the second runs once the fourth has failed, and
the last one is never let run. -/
def fiveScripts : List Script :=
  [⟨"wwan0", 1000, [some ⟨1, 2⟩], 1, false, false, false⟩,
    ⟨"wwan1", 500, [some ⟨3, 4⟩, none, some ⟨5, 6⟩], 4, false, false, false⟩,
    ⟨"wwan2", 500, [], 0, true, false, false⟩,
    ⟨"wwan3", 250, [some ⟨7, 8⟩], 1, false, true, true⟩,
    ⟨"wwan0", 1000, [some ⟨9, 10⟩], 1, false, false, false⟩]

theorem second_of_five_runs :
    (∀ i r, ¬ Runs fiveScripts i 0 r) ∧
      (registerAll fiveScripts)[3]? = some (.error (.keyNotFound "refreshes"),
        [.asked (.rate "wwan3" 250), .asked (.refreshes "wwan3"), .asked (.read "wwan1"),
          .delivered 1 ⟨3, 4⟩, .asked (.read "wwan1"), .asked (.read "wwan1"),
          .delivered 1 ⟨5, 6⟩, .asked (.read "wwan1")]) ∧
      ∃ o, (slotAfter fiveScripts).running? = some o ∧
        o.log = [.asked (.read "wwan0"), .delivered 4 ⟨9, 10⟩] := by
  obtain ⟨-, hLogs, -, hReplaced, hKept, -⟩ := registrations_run_last_holder fiveScripts
  have hFirst : Waits fiveScripts 1 0 := by
    intro k s _ hLt hScript
    obtain rfl := Nat.lt_one_iff.mp hLt
    cases hScript
    rfl
  have hSecond : Runs fiveScripts 3 1 ⟨"wwan1", 500, [some ⟨3, 4⟩, none, some ⟨5, 6⟩], 4, false,
      false, false⟩ := by
    refine ⟨⟨by decide, rfl, rfl, fun k s hAfter hLt hScript => ?_⟩,
      fun k s hFrom hLt hScript => ?_, _, rfl, rfl⟩
    · obtain rfl | rfl : k = 2 ∨ k = 3 := by omega
      all_goals
        cases hScript
        nofun
    · obtain rfl | rfl : k = 1 ∨ k = 2 := by omega
      all_goals
        cases hScript
        rfl
  refine ⟨hReplaced 0 1 _ rfl Nat.one_pos rfl hFirst, ?_, ?_⟩
  · obtain ⟨log, hEntry, hRan, -⟩ := hLogs 3 _ rfl
    rw [hEntry, hRan 1 _ hSecond]
    rfl
  · have hLast : ∀ k s, 4 < k → fiveScripts[k]? = some s → s.result ≠ .ok () := by
      intro k s hAfter hScript
      have hLt : k < 5 := (List.getElem?_eq_some_iff.mp hScript).1
      omega
    rcases hKept 4 _ rfl rfl hLast with ⟨i, hRuns⟩ | hSlot
    · obtain ⟨s, hScript, hSettles⟩ := hRuns.settles
      obtain rfl : i = 4 := Nat.le_antisymm
        (Nat.le_of_lt_succ (List.getElem?_eq_some_iff.mp hScript).1)
        (Nat.le_of_lt_succ hRuns.holds.lt)
      cases hScript
      cases hSettles
    · exact hSlot

end ModemLink.Traffic.Scripted
