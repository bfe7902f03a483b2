import ModemLink.Proofs.Bus.Tree
import ModemLink.Proofs.Manager.Order
import ModemLink.Session.Scene

/-!
# Starting while objects change

A manager asks for the signals first and for the objects afterwards. So the objects that it is told
may already show changes whose signals are still to come. Taking these changes in once more does no
harm: at each path the last change that is about the interface of modems decides, and it decides the
same for the bus and for the registry.

* `told`: the changes that a tracker is told of changes of the objects.
* `foldl_replay`: taking changes in again that a later state shows already.
* `start_result`: how a start ends.
* `start_misses_nothing`: the registry after the start and all signals.
-/

namespace ModemLink.Manager

open Bus (World Change)
open Registry (Event)

/-! ## Signals -/

/-- The member and the arguments of the signal that the daemon sends about a change. -/
def signalOf : Change → String × List Bus.Value
  | .gained path interfaces =>
    (announcements.member, [.path path, .interfaces (World.announcedOf interfaces)])
  | .lost path names => (removals.member, [.path path, .strings names])

def told? (c : Change) : Option ObjectChange := change? (signalOf c).1 (signalOf c).2

/-- The changes that a tracker is told by the signals about changes of the objects. -/
def told (changes : List Change) : List ObjectChange := changes.filterMap told?

/-- Whether a change is about the interface of modems of an object that can be a modem. -/
def aboutModem (path : String) (c : Change) : Bool :=
  Text.beginsWith path Bus.modemPathStart && c.touches path Bus.Interface.modem

theorem isAt_eq (c : ObjectChange) {object path : String} {isModem : Bool}
    (h : c.modem? = if isModem then some object else none) :
    c.isAt path = (object == path && isModem) := by
  rw [ObjectChange.isAt, h]
  cases isModem with
  | false => exact (Bool.and_false _).symm
  | true => exact (Bool.and_true _).symm

theorem exists_told {c : Change} (hNames : ∀ name ∈ c.names, Bus.isInterfaceName name = true) :
    ∃ t, told? c = some t ∧ t.isAdded = c.isGain ∧ ∀ path, t.isAt path = aboutModem path c := by
  have hAbout : ∀ object path hasModem,
      (object == path && (Text.beginsWith object Bus.modemPathStart && hasModem)) =
        (Text.beginsWith path Bus.modemPathStart && (path == object && hasModem)) := by
    intro object path hasModem
    by_cases h : object = path
    · subst object
      simp
    · simp [beq_false_of_ne h, beq_false_of_ne (Ne.symm h)]
  cases c with
  | gained object interfaces =>
    have hValid : ((World.announcedOf interfaces).all fun i => Bus.isInterfaceName i.1) = true := by
      refine List.all_eq_true.mpr fun i hi => hNames i.1 ?_
      have hAny : (World.announcedOf interfaces).any (·.1 == i.1) = true :=
        List.any_eq_true.mpr ⟨i, hi, beq_self_eq_true _⟩
      rw [World.any_announcedOf] at hAny
      obtain ⟨j, hj, hEq⟩ := List.any_eq_true.mp hAny
      exact List.mem_map.mpr ⟨j, hj, eq_of_beq hEq⟩
    refine ⟨.added (.ofBus object (World.announcedOf interfaces)), ?_, rfl, fun path => ?_⟩
    · simp [told?, signalOf, change?, Announcement.ofArguments?, hValid]
    · have hModem : (Announcement.ofBus object (World.announcedOf interfaces)).isModem =
          (Text.beginsWith object Bus.modemPathStart &&
            interfaces.any (·.1 == Bus.Interface.modem)) := by
        rw [← World.any_announcedOf, Announcement.isModem, Announcement.ofBus, List.any_map]
        rfl
      rw [isAt_eq _ rfl, hModem, aboutModem, Change.touches, Change.names, Bus.contains_map_fst]
      exact hAbout object path _
  | lost object names =>
    have hValid : (names.all Bus.isInterfaceName) = true := List.all_eq_true.mpr hNames
    refine ⟨.removed ⟨object, names⟩, ?_, rfl, fun path => ?_⟩
    · simp [told?, signalOf, change?, Removal.ofArguments?, hValid, announcements, removals,
        changesNamed]
    · rw [isAt_eq _ rfl]
      exact hAbout object path _

/-- The names in changes are interface names. -/
def ProperNames (changes : List Change) : Prop :=
  ∀ c ∈ changes, ∀ name ∈ c.names, Bus.isInterfaceName name = true

theorem foldl_told {changes : List Change} (hNames : ProperNames changes) (path : String)
    (known : Bool) :
    (told changes).foldl (fun known t => t.knowsAfter path known) known =
      changes.foldl (fun known c => if aboutModem path c then c.isGain else known) known := by
  induction changes generalizing known with
  | nil => rfl
  | cons c rest ih =>
    obtain ⟨hFirst, hRest⟩ := List.forall_mem_cons.mp hNames
    obtain ⟨t, hTold, hGain, hAt⟩ := exists_told hFirst
    rw [told, List.filterMap_cons_some hTold, List.foldl_cons, ← told, ih hRest, List.foldl_cons,
      ObjectChange.knowsAfter, hAt, hGain]

/-! ## Changes that are seen twice -/

/-- If every step sets a value or keeps it, a fold either keeps every value or forgets it. -/
theorem foldl_keeps_or_sets {α β : Type} (decides : α → Bool) (value : α → β) (l : List α) :
    (∀ b, l.foldl (fun b a => if decides a then value a else b) b = b) ∨
      ∃ v, ∀ b, l.foldl (fun b a => if decides a then value a else b) b = v := by
  induction l with
  | nil => exact .inl fun _ => rfl
  | cons a rest ih =>
    rcases ih with hKeeps | ⟨v, hSets⟩
    · cases ha : decides a with
      | true => exact .inr ⟨value a, fun b => by rw [List.foldl_cons, if_pos ha, hKeeps]⟩
      | false => exact .inl fun b => by simp [List.foldl_cons, ha, hKeeps]
    · exact .inr ⟨v, fun b => by rw [List.foldl_cons, hSets]⟩

/-- Taking everything in from a value that shows a first part already leads where the first value
leads: the last element that decides is the same. -/
theorem foldl_replay {α β : Type} (decides : α → Bool) (value : α → β) (first rest : List α)
    (b : β) :
    (first ++ rest).foldl (fun b a => if decides a then value a else b)
        (first.foldl (fun b a => if decides a then value a else b) b) =
      (first ++ rest).foldl (fun b a => if decides a then value a else b) b := by
  rw [List.foldl_append, List.foldl_append]
  rcases foldl_keeps_or_sets decides value first with hKeeps | ⟨v, hSets⟩
  · rw [hKeeps, hKeeps]
  · rw [hSets, hSets]

/-! ## The start -/

/-- The environment takes both subscriptions and then lists objects. -/
def Enumerates {σ : Type} (answer : σ → Bus.Query → Bus.Reply × σ) (s : σ)
    (objects : List (String × List (String × List (String × Bus.Value)))) : Prop :=
  ∃ s₁ s₂ s₃, answer s (.subscribe announcements) = (.ok [.boolean true], s₁) ∧
    answer s₁ (.subscribe removals) = (.ok [.boolean true], s₂) ∧
    answer s₂ (.call .modemManager Bus.managerPath Bus.Interface.objectManager
      "GetManagedObjects" []) = (.ok [.objects objects], s₃)

/-- All announced modems are found, in order, whatever they tell. -/
theorem ends_identifyAll (as : List Announcement) :
    Program.Ends (fun x => ∃ found, x = .ok found ∧
      found.map Prod.fst = (as.filter (·.isModem)).map Announcement.path)
      (identifyAll as) as.length := by
  induction as with
  | nil => exact ⟨[], rfl, rfl⟩
  | cons a rest ih =>
    cases hModem : a.isModem with
    | true =>
      have hFirst : identifyAll (a :: rest) = a.identify.bind fun identity =>
          (identifyAll rest).bind fun found => .done ((a.path, identity) :: found) := by
        rw [identifyAll, if_pos hModem]
        rfl
      rw [hFirst, List.length_cons, Nat.add_comm]
      refine Program.ends_bind a.ends_identify ?_ fun identity _ => ?_
      · rintro e ⟨identity, hEq, -⟩
        cases hEq
      · refine Program.ends_bind (m := 0) ih ?_ ?_
        · rintro e ⟨found, hEq, -⟩
          cases hEq
        · rintro found ⟨found', hEq, hFound⟩
          obtain rfl : found = found' := Except.ok.inj hEq
          exact ⟨_, rfl, by simp [hModem, hFound]⟩
    | false =>
      rw [identifyAll, if_neg (by simp [hModem])]
      refine ih.mono ?_ (Nat.le_succ _)
      rintro x ⟨found, rfl, hFound⟩
      exact ⟨found, rfl, by simp [hModem, hFound]⟩

theorem start_result {σ : Type} {answer : σ → Bus.Query → Bus.Reply × σ} {s : σ}
    {objects : List (String × List (String × List (String × Bus.Value)))}
    (hNames : ∀ o ∈ objects, ∀ i ∈ o.2, Bus.isInterfaceName i.1 = true)
    (h : Enumerates answer s objects) :
    ∃ found, (start.run answer true s).result = .ok found ∧
      found.map Prod.fst =
        (objects.filter fun o => (Announcement.ofBus o.1 o.2).isModem).map Prod.fst := by
  obtain ⟨s₁, s₂, s₃, h₁, h₂, h₃⟩ := h
  have hAll : (objects.all fun o => o.2.all fun i => Bus.isInterfaceName i.1) = true := by
    simpa using hNames
  have hEnumerate : (enumerate.run answer true s).result =
      .ok (objects.map fun o => .ofBus o.1 o.2) := by
    simp [enumerate, Program.connection, Program.bind, Program.run, Request.subscribe,
      Request.command, Request.asking, h₁, h₂, h₃, Bus.Reply.content, Bus.BodyType.read,
      Bus.BodyType.single, Bus.ValueType.boolean, Bus.ValueType.objects, Except.bind,
      Except.mapError, Program.ofExcept, announcementsOf, hAll]
  rw [start, Program.bind_eq, Program.result_bind ((Program.result_attempt _ _ _ _).trans (congrArg _ hEnumerate))]
  obtain ⟨⟨found, hResult, hFound⟩, -⟩ :=
    Program.ends_run (ends_identifyAll (objects.map fun o => .ofBus o.1 o.2)) answer true
      (enumerate.attempt.run answer true s).state
  refine ⟨found, hResult, hFound.trans ?_⟩
  rw [List.filter_map, List.map_map]
  rfl

theorem knows_modems (fresh : Nat) (found : List (String × String)) (r : Modems) (path : String) :
    (modems fresh found r).knows path = (r.knows path || (found.map Prod.fst).contains path) := by
  induction found generalizing fresh r with
  | nil => simp [modems]
  | cons first rest ih =>
    rw [modems, ih, Registry.knows_add, List.map_cons, List.contains_cons, Bool.or_assoc,
      Bool.beq_comm]

theorem distinct_modems (fresh : Nat) (found : List (String × String)) {r : Modems}
    (h : r.Distinct) : (modems fresh found r).Distinct := by
  induction found generalizing fresh r with
  | nil => exact h
  | cons first rest ih => exact ih _ (h.add _ _)

theorem below_manager {path : String} (h : Text.beginsWith path Bus.modemPathStart = true) :
    Text.beginsWith path (Bus.managerPath ++ "/") = true := by
  have hStart : Bus.modemPathStart = Bus.managerPath ++ "/" ++ "Modem/" := by decide
  obtain ⟨rest, hRest⟩ := Text.beginsWith_iff.mp h
  refine Text.beginsWith_iff.mpr ⟨"Modem/".toList ++ rest, ?_⟩
  rw [hRest, hStart, String.toList_append, List.append_assoc]

theorem properNames_changeAll {w : World} {changes : List Change}
    (hTree : ∀ path name, w.exposes path name = true → Bus.isInterfaceName name = true)
    (hNames : ProperNames changes) (path name : String)
    (h : (w.changeAll changes).exposes path name = true) : Bus.isInterfaceName name = true := by
  induction changes generalizing w with
  | nil => exact hTree path name h
  | cons c rest ih =>
    obtain ⟨hFirst, hRest⟩ := List.forall_mem_cons.mp hNames
    refine ih (fun other given hGiven => ?_) hRest h
    rw [World.exposes_change] at hGiven
    split at hGiven
    · rename_i hTouches
      exact hFirst given (List.contains_iff_mem.mp (Bool.and_eq_true_iff.mp hTouches).2)
    · exact hTree other given hGiven

/-- The registry lists the modems that are on a bus, each of them once. -/
def Shows (r : Modems) (w : World) : Prop :=
  r.Distinct ∧ ∀ path, path ∈ r.list.map Tracked.path ↔
    Text.beginsWith path Bus.modemPathStart = true ∧
      w.exposes path Bus.Interface.modem = true

theorem knows_start {w : World}
    {objects : List (String × List (String × List (String × Bus.Value)))}
    {found : List (String × String)} (hLists : w.Lists objects)
    (hFound : found.map Prod.fst =
      (objects.filter fun o => (Announcement.ofBus o.1 o.2).isModem).map Prod.fst)
    (fresh : Nat) (path : String) :
    (modems fresh found .empty).knows path =
      (Text.beginsWith path Bus.modemPathStart && w.exposes path Bus.Interface.modem) := by
  have hModem : ∀ o : String × List (String × List (String × Bus.Value)),
      (Announcement.ofBus o.1 o.2).isModem =
        (Text.beginsWith o.1 Bus.modemPathStart && o.2.any (·.1 == Bus.Interface.modem)) := by
    intro o
    rw [Announcement.isModem, Announcement.ofBus, List.any_map]
    rfl
  rw [knows_modems, hFound]
  refine (Bool.false_or _).trans (Bool.eq_iff_iff.mpr ?_)
  rw [List.contains_iff_mem, List.mem_map, Bool.and_eq_true_iff]
  simp only [List.mem_filter, hModem, Bool.and_eq_true]
  constructor
  · rintro ⟨o, ⟨ho, hBelow, hHas⟩, rfl⟩
    exact ⟨hBelow, ((hLists o.1 _).mp ⟨o, ho, rfl, hHas⟩).2⟩
  · rintro ⟨hBelow, hHas⟩
    obtain ⟨o, ho, rfl, hAny⟩ := (hLists path _).mpr ⟨below_manager hBelow, hHas⟩
    exact ⟨o, ⟨ho, hBelow, hAny⟩, rfl⟩

/-! ## The end -/

/-- Taking in the signals of all changes, from a registry that shows the tree after the first of
them, leads to what the tree shows in the end. -/
theorem shows_of_follows {r : Modems} {w : World} {before after : List Change}
    {history : List (Event Nat)} (hNames : ProperNames (before ++ after)) (hDistinct : r.Distinct)
    (hStart : ∀ path, r.knows path = (Text.beginsWith path Bus.modemPathStart &&
      (w.changeAll before).exposes path Bus.Interface.modem))
    (hFollows : Follows (told (before ++ after)) history) :
    Shows (r.applyAll history) (w.changeAll (before ++ after)) := by
  refine ⟨hDistinct.applyAll history, fun path => ?_⟩
  rw [Registry.mem_paths_iff, hFollows.knows_applyAll, foldl_told hNames, hStart]
  unfold aboutModem
  cases hBelow : Text.beginsWith path Bus.modemPathStart with
  | true =>
    simp only [Bool.true_and, true_and]
    rw [World.exposes_changeAll w before, foldl_replay, ← World.exposes_changeAll]
  | false =>
    have hKeeps : ∀ changes : List Change,
        changes.foldl (fun known c => if false = true then c.isGain else known) false = false := by
      intro changes
      induction changes with
      | nil => rfl
      | cons c rest ih => exact ih
    simp only [Bool.false_and]
    rw [hKeeps]
    simp

theorem list_of_follows {changes : List Change} {history : List (Event Nat)}
    (hNames : ProperNames changes) (hOther : ∀ c ∈ changes, ∀ path, aboutModem path c = false)
    (hFollows : Follows (told changes) history) (r : Modems) :
    (r.applyAll history).list = r.list := by
  have hNone : (told changes).filter (·.modem?.isSome) = [] := by
    refine List.filter_eq_nil_iff.mpr fun t ht hSome => ?_
    obtain ⟨c, hc, hTold⟩ := List.mem_filterMap.mp ht
    obtain ⟨t', hTold', -, hAt⟩ := exists_told (hNames c hc)
    obtain rfl : t = t' := Option.some.inj (hTold.symm.trans hTold')
    obtain ⟨path, hPath⟩ := Option.isSome_iff_exists.mp hSome
    have hIs := hAt path
    simp [ObjectChange.isAt, hPath, hOther c hc path] at hIs
  rw [Follows, hNone] at hFollows
  have hCalls := List.filter_eq_nil_iff.mp (List.forall₂_nil_left_iff.mp hFollows)
  exact Registry.list_applyAll fun e he => Bool.eq_false_iff.mpr (hCalls e he)

/-- **A start misses nothing and doubles nothing.** Let the objects be listed, in any order, as they
are after the first of any changes. Then the manager starts, whatever the modems tell about their
identities; and after the signals of all changes, those before the listing among them, the registry
lists exactly the objects that are modems in the end, each of them once. This holds of every history
that does what the signals say, and of the tracker at rest if it never had an announcement and a
removal of one modem waiting together. Changes that are not about modems do not alter the list. -/
theorem start_misses_nothing {σ : Type} (answer : σ → Bus.Query → Bus.Reply × σ) (s : σ)
    (w : World) (before after : List Change)
    (objects : List (String × List (String × List (String × Bus.Value)))) (fresh : Nat)
    (hTree : ∀ o ∈ w.objects, ∀ i ∈ o.2, Bus.isInterfaceName i.1 = true)
    (hNames : ProperNames (before ++ after)) (hLists : (w.changeAll before).Lists objects)
    (hEnumerates : Enumerates answer s objects) :
    ∃ found, (start.run answer true s).result = .ok found ∧
      (∀ history, Follows (told (before ++ after)) history →
        Shows ((modems fresh found .empty).applyAll history) (w.changeAll (before ++ after))) ∧
      (∀ moves, Tracker.sent moves = told (before ++ after) →
        (Tracker.run (modems fresh found .empty) moves).1.isIdle = true →
        (∀ path, Tracker.AlwaysApart (·.isAt path) (modems fresh found .empty) moves) →
        Shows (Tracker.run (modems fresh found .empty) moves).2 (w.changeAll (before ++ after))) ∧
      ∀ changes history, ProperNames changes →
        (∀ c ∈ changes, ∀ path, aboutModem path c = false) → Follows (told changes) history →
        ∀ r : Modems, (r.applyAll history).list = r.list := by
  have hBefore : ProperNames before := fun c hc => hNames c (List.mem_append_left after hc)
  have hExposed : ∀ path name, w.exposes path name = true → Bus.isInterfaceName name = true := by
    intro path name h
    obtain ⟨o, ho, -, i, hi, rfl⟩ := w.exists_of_exposes h
    exact hTree o ho i hi
  have hListed : ∀ o ∈ objects, ∀ i ∈ o.2, Bus.isInterfaceName i.1 = true := by
    intro o ho i hi
    have hHas : o.2.any (·.1 == i.1) = true := List.any_eq_true.mpr ⟨i, hi, beq_self_eq_true _⟩
    exact properNames_changeAll hExposed hBefore o.1 i.1
      ((hLists o.1 i.1).mp ⟨o, ho, rfl, hHas⟩).2
  obtain ⟨found, hResult, hFound⟩ := start_result hListed hEnumerates
  have hShows : ∀ history, Follows (told (before ++ after)) history →
      Shows ((modems fresh found .empty).applyAll history) (w.changeAll (before ++ after)) := by
    intro history hFollows
    exact shows_of_follows hNames (distinct_modems fresh found List.nodup_nil)
      (knows_start hLists hFound fresh) hFollows
  refine ⟨found, hResult, hShows, fun moves hSent hIdle hApart => ?_,
    fun changes history hProper hOther hFollows r => list_of_follows hProper hOther hFollows r⟩
  obtain ⟨busy, finished, history, account⟩ :=
    Tracker.exists_account (modems fresh found .empty) moves
  obtain ⟨inOrder, past, hFollows⟩ := account.exists_in_order hIdle hApart
  rw [past.registry]
  exact hShows inOrder (hSent ▸ hFollows)

/-- A start while one modem goes and comes back and another one comes and loses an interface. -/
theorem start_during_changes :
    let daemon := "/org/freedesktop/ModemManager1/"
    let w : World :=
      ⟨true, true, [(daemon ++ "Modem/0", [(Bus.Interface.modem, [])]),
        (daemon ++ "SIM/0", [(Bus.Interface.sim, [])])], []⟩
    let before : List Change :=
      [.gained (daemon ++ "Modem/1") [(Bus.Interface.modem, []), (Bus.Interface.time, [])],
        .lost (daemon ++ "Modem/0") [Bus.Interface.modem]]
    let after : List Change :=
      [.gained (daemon ++ "Modem/0") [(Bus.Interface.modem, [])],
        .lost (daemon ++ "Modem/1") [Bus.Interface.time]]
    let moves : List Tracker.Move := (before ++ after).flatMap fun c =>
      [.signal (signalOf c).1 (signalOf c).2, .turn true 7, .turn true 7, .replied (.ok []),
        .turn true 7]
    ∃ found, (start.run Scene.ask true ⟨w.changeAll before, [], []⟩).result = .ok found ∧
      found = [(daemon ++ "Modem/1", "")] ∧
      (Tracker.run (modems 0 found .empty) moves).1.isIdle = true ∧
      Shows (Tracker.run (modems 0 found .empty) moves).2 (w.changeAll (before ++ after)) := by
  intro daemon w before after moves
  have hTree : ∀ o ∈ w.objects, ∀ i ∈ o.2, Bus.isInterfaceName i.1 = true := by
    subst daemon w before after moves
    decide
  have hNames : ProperNames (before ++ after) := by
    subst daemon w before after moves
    unfold ProperNames
    decide
  have hDistinct : ((w.changeAll before).objects.map Prod.fst).Nodup := by
    subst daemon w before after moves
    decide
  have hEnumerates : Enumerates Scene.ask ⟨w.changeAll before, [], []⟩
      (w.changeAll before).managedObjects := by
    subst daemon w before after moves
    exact ⟨_, _, _, rfl, rfl, rfl⟩
  have hFound : (start.run Scene.ask true ⟨w.changeAll before, [], []⟩).result =
      .ok [(daemon ++ "Modem/1", "")] := by
    subst daemon w before after moves
    rfl
  have hSent : Tracker.sent moves = told (before ++ after) := by
    subst daemon w before after moves
    rfl
  have hIdle : (Tracker.run (modems 0 [(daemon ++ "Modem/1", "")] .empty) moves).1.isIdle =
      true := by
    subst daemon w before after moves
    rfl
  obtain ⟨found, hResult, -, hRun, -⟩ := start_misses_nothing Scene.ask
    ⟨w.changeAll before, [], []⟩ w before after _ 0 hTree hNames
    (World.lists_of_perm hDistinct (List.Perm.refl _)) hEnumerates
  obtain rfl : found = [(daemon ++ "Modem/1", "")] :=
    Except.ok.inj (hResult.symm.trans hFound)
  refine ⟨_, hResult, rfl, hIdle, hRun moves hSent hIdle fun path => ?_⟩
  refine Tracker.alwaysApart_of_isEmpty ?_ _
  subst daemon w before after moves
  rfl

end ModemLink.Manager
