import ModemLink.Proofs.Manager.Identity
import ModemLink.Proofs.Manager.Startup
import ModemLink.Proofs.Program.Courses
import ModemLink.Session.Run

/-!
# Starting is all or nothing

A start needs a bus, both subscriptions and a list of the objects. Without one of them it fails, and
always for the same reason, that the daemon cannot be reached. Nothing else makes it fail: every
modem on the list is found, whatever becomes of the question for its IMEI, which is asked only if
the list does not tell an identity.

* `Listing`: what an environment must answer so that a manager starts.
* `listing_of_ok`, `run_of_listing`: the objects are listed in no other case, and then how.
* `Announcement.Identified`, `Identified`: what is asked of listed objects, and what is found.
* `start_is_all_or_nothing`: when a manager starts, what it asks and which modems it then has.
-/

namespace ModemLink

open Reset (imeiQuery imeiIn)

namespace Manager

variable {σ : Type} {answer : σ → Bus.Query → Bus.Reply × σ} {s : σ}

/-! ## The list of objects -/

/-- The objects with their interfaces and properties, as a message carries them. -/
abbrev ObjectList := List (String × List (String × List (String × Bus.Value)))

/-- The question for the objects of the daemon. -/
def objectsQuery : Bus.Query :=
  .call .modemManager Bus.managerPath Bus.Interface.objectManager "GetManagedObjects" []

/-- The environment takes both subscriptions and lists objects, all of whose interfaces have
interface names; then it is in the state `s'`. -/
def Listing (answer : σ → Bus.Query → Bus.Reply × σ) (s : σ) (objects : ObjectList) (s' : σ) :
    Prop :=
  ∃ added removed s₁ s₂, answer s (.subscribe announcements) = (.ok [.boolean added], s₁) ∧
    answer s₁ (.subscribe removals) = (.ok [.boolean removed], s₂) ∧
    answer s₂ objectsQuery = (.ok [.objects objects], s') ∧
    ∀ o ∈ objects, ∀ i ∈ o.2, Bus.isInterfaceName i.1 = true

/-- The objects of a list as they are announced. -/
def listed (objects : ObjectList) : List Announcement :=
  objects.map fun o => .ofBus o.1 o.2

theorem content_objects {r : Bus.Reply} {objects : ObjectList}
    (h : r.content (.single .objects) = .ok objects) : r = .ok [.objects objects] := by
  obtain ⟨v, rfl, hRead⟩ := Bus.Reply.content_single.mp h
  cases v with
  | objects items => rw [Option.some.inj hRead]
  | _ => cases hRead

theorem announcementsOf_eq_ok {objects : ObjectList} {as : List Announcement} :
    announcementsOf objects = .ok as ↔
      as = listed objects ∧ ∀ o ∈ objects, ∀ i ∈ o.2, Bus.isInterfaceName i.1 = true := by
  have hNames : (objects.all fun o => o.2.all fun i => Bus.isInterfaceName i.1) = true ↔
      ∀ o ∈ objects, ∀ i ∈ o.2, Bus.isInterfaceName i.1 = true := by
    simp only [List.all_eq_true]
  rw [announcementsOf, ← hNames]
  split
  · rename_i hProper
    exact ⟨fun h => ⟨(Except.ok.inj h).symm, hProper⟩, fun h => congrArg Except.ok h.1.symm⟩
  · rename_i hImproper
    constructor
    · intro h
      cases h
    · exact fun h => absurd h.2 hImproper

/-- The objects are known only if they are listed. -/
theorem listing_of_ok {as : List Announcement}
    (h : (enumerate.run answer true s).result = .ok as) :
    ∃ objects s', Listing answer s objects s' := by
  obtain ⟨_, hAdded, hRest⟩ :=
    Program.exists_of_result_bind (p := Request.subscribe announcements) h
  obtain ⟨_, hRemoved, hRest⟩ := Program.exists_of_result_bind hRest
  obtain ⟨objects, hObjects, hNames⟩ := Program.exists_of_result_bind hRest
  obtain ⟨added, s₁, h₁, hFirst, -⟩ := Program.taken_of_subscribe hAdded
  rw [hFirst] at hRemoved hObjects hNames
  obtain ⟨removed, s₂, h₂, hSecond, -⟩ := Program.taken_of_subscribe hRemoved
  rw [hSecond] at hObjects hNames
  rw [Request.command, Program.run_asking] at hObjects
  rw [Program.run_ofExcept] at hNames
  exact ⟨objects, _, added, removed, _, _, h₁, h₂,
    Prod.ext (content_objects (Program.mapError_eq_ok.mp hObjects)) rfl,
    (announcementsOf_eq_ok.mp hNames).2⟩

theorem run_of_listing {objects : ObjectList} {s' : σ} (h : Listing answer s objects s') :
    let outcome := enumerate.run answer true s
    outcome.result = .ok (listed objects) ∧ outcome.state = s' ∧ outcome.trace.map Prod.fst =
      [.subscribe announcements, .subscribe removals, objectsQuery] := by
  obtain ⟨added, removed, s₁, s₂, h₁, h₂, h₃, hNames⟩ := h
  have hAnnounced : announcementsOf objects = .ok (listed objects) :=
    announcementsOf_eq_ok.mpr ⟨rfl, hNames⟩
  have hAdded := Program.run_subscribe announcements answer true s
  have hRemoved := Program.run_subscribe removals answer true s₁
  have hObjects := Program.run_asking objectsQuery (.single .objects)
    (fun f => Error.bus f.standard) answer true s₂
  rw [h₁] at hAdded
  rw [h₂] at hRemoved
  rw [h₃] at hObjects
  have hRun : enumerate.run answer true s = ⟨.ok (listed objects), s',
      [(.subscribe announcements, .ok [.boolean added]),
        (.subscribe removals, .ok [.boolean removed]),
        (objectsQuery, .ok [.objects objects])]⟩ := by
    refine (Program.run_bind_of_ok (p := Request.subscribe announcements)
      (congrArg (·.result) hAdded)).trans ?_
    rw [hAdded]
    dsimp only
    rw [Program.bind_eq, Program.run_bind_of_ok (congrArg (·.result) hRemoved), hRemoved]
    dsimp only
    rw [Request.command, Program.bind_eq, ← objectsQuery,
      Program.run_bind_of_ok (congrArg (·.result) hObjects), hObjects, hAnnounced]
    rfl
  rw [hRun]
  exact ⟨rfl, rfl, rfl⟩

/-! ## The modems on the list -/

end Manager

namespace Announcement

theorem ne_empty_of_identity? {a : Announcement} {identity : String}
    (h : a.identity? = some identity) : identity ≠ "" := by
  rcases identity?_eq_some_iff.mp h with hImei | ⟨-, hEquipment⟩
  · exact ne_empty_of_text? hImei
  · exact ne_empty_of_text? hEquipment

/-- What is asked about an announced modem, with the replies, and what identity it is found to have:
the one that it carries, or else the one that is told, if one is told. -/
inductive Identified (a : Announcement) : List (Bus.Query × Bus.Reply) → String → Prop
  | carried {identity : String} (h : a.identity? = some identity) : Identified a [] identity
  | asked (r : Bus.Reply) (h : a.identity? = none) :
      Identified a [(imeiQuery a.path, r)] ((imeiIn r).toOption.getD "")

theorem run_identify {σ : Type} (a : Announcement) (answer : σ → Bus.Query → Bus.Reply × σ)
    (s : σ) :
    let outcome := a.identify.run answer true s
    ∃ identity, outcome.result = .ok identity ∧ a.Identified outcome.trace identity := by
  intro outcome
  cases hIdentity : a.identity? with
  | some identity =>
    have hOutcome : outcome = ⟨.ok identity, s, []⟩ := by
      simp only [outcome, identify, hIdentity]
      rfl
    rw [hOutcome]
    exact ⟨identity, rfl, .carried hIdentity⟩
  | none =>
    have hImei : (Modem.imei a.path).run answer true s =
        ⟨imeiIn (answer s (imeiQuery a.path)).1, (answer s (imeiQuery a.path)).2,
          [(imeiQuery a.path, (answer s (imeiQuery a.path)).1)]⟩ :=
      Program.run_asking _ _ _ _ _ _
    have hOutcome : outcome = ⟨.ok ((imeiIn (answer s (imeiQuery a.path)).1).toOption.getD ""),
        (answer s (imeiQuery a.path)).2,
        [(imeiQuery a.path, (answer s (imeiQuery a.path)).1)]⟩ := by
      have hResult := Program.run_attempt (Modem.imei a.path) answer true s
      simp only [outcome, identify, hIdentity]
      rw [Program.bind_eq, Program.run_bind_of_ok (congrArg (·.result) hResult), hResult, hImei]
      cases hTold : imeiIn (answer s (imeiQuery a.path)).1 with
      | ok identity => rfl
      | error e => rfl
    rw [hOutcome]
    exact ⟨_, rfl, .asked _ hIdentity⟩

end Announcement

namespace Manager

/-- What is asked about announced objects, with the replies, and what modems are found. -/
inductive Identified :
    List Announcement → List (Bus.Query × Bus.Reply) → List (String × String) → Prop
  | nil : Identified [] [] []
  | modem {a : Announcement} {as : List Announcement} {asked later : List (Bus.Query × Bus.Reply)}
      {identity : String} {found : List (String × String)} (h : a.isModem = true)
      (first : a.Identified asked identity) (rest : Identified as later found) :
      Identified (a :: as) (asked ++ later) ((a.path, identity) :: found)
  | other {a : Announcement} {as : List Announcement} {asked : List (Bus.Query × Bus.Reply)}
      {found : List (String × String)} (h : a.isModem = false) (rest : Identified as asked found) :
      Identified (a :: as) asked found

theorem run_identifyAll (as : List Announcement) (answer : σ → Bus.Query → Bus.Reply × σ) (s : σ) :
    let outcome := (identifyAll as).run answer true s
    ∃ found, outcome.result = .ok found ∧ Identified as outcome.trace found := by
  induction as generalizing s with
  | nil => exact ⟨[], rfl, .nil⟩
  | cons a rest ih =>
    cases hModem : a.isModem with
    | true =>
      obtain ⟨identity, hIdentity, hFirst⟩ := a.run_identify answer s
      obtain ⟨found, hFound, hRest⟩ := ih (a.identify.run answer true s).state
      have hRun := Program.run_bind_of_ok
        (f := fun identity => (identifyAll rest).bind fun found =>
          .done ((a.path, identity) :: found)) hIdentity
      simp only [Program.run_map] at hRun
      have hAll : identifyAll (a :: rest) = a.identify.bind fun identity =>
          (identifyAll rest).bind fun found => .done ((a.path, identity) :: found) := by
        rw [identifyAll, if_pos hModem]
        rfl
      simp only [hAll, hRun, hFound]
      exact ⟨_, rfl, .modem hModem hFirst hRest⟩
    | false =>
      obtain ⟨found, hFound, hRest⟩ := ih s
      rw [identifyAll, if_neg (Bool.eq_false_iff.mp hModem)]
      exact ⟨found, hFound, .other hModem hRest⟩

namespace Identified

variable {as : List Announcement} {asked : List (Bus.Query × Bus.Reply)}
  {found : List (String × String)}

theorem paths (h : Identified as asked found) :
    found.map Prod.fst = (as.filter (·.isModem)).map Announcement.path := by
  induction h with
  | nil => rfl
  | modem h first rest ih => rw [List.filter_cons_of_pos h, List.map_cons, List.map_cons, ih]
  | other h rest ih => rw [List.filter_cons_of_neg (Bool.eq_false_iff.mp h), ih]

/-- One question is asked for each modem that carries no identity, and no other. -/
theorem questions (h : Identified as asked found) :
    asked.map Prod.fst =
      (as.filter fun a => a.isModem && a.identity?.isNone).map fun a => imeiQuery a.path := by
  induction h with
  | nil => rfl
  | modem h first rest ih =>
    rw [List.map_append, ih]
    cases first with
    | carried hIdentity => rw [List.filter_cons_of_neg (by simp [hIdentity])]; rfl
    | asked r hIdentity => rw [List.filter_cons_of_pos (by simp [h, hIdentity])]; rfl
  | other h rest ih => rw [List.filter_cons_of_neg (by simp [h]), ih]

theorem mem (h : Identified as asked found) {a : Announcement} (ha : a ∈ as)
    (hModem : a.isModem = true) :
    ∃ part identity, a.Identified part identity ∧ part ⊆ asked ∧ (a.path, identity) ∈ found := by
  induction h with
  | nil => cases ha
  | modem h first rest ih =>
    rcases List.mem_cons.mp ha with rfl | ha
    · exact ⟨_, _, first, List.subset_append_left _ _, List.mem_cons_self⟩
    · obtain ⟨part, identity, hPart, hAsked, hFound⟩ := ih ha
      exact ⟨part, identity, hPart, List.subset_append_of_subset_right _ hAsked,
        List.mem_cons_of_mem _ hFound⟩
  | other h rest ih =>
    rcases List.mem_cons.mp ha with rfl | ha
    · rw [h] at hModem
      cases hModem
    · exact ih ha

end Identified

theorem identityOf?_modems_of_notMem {path : String} {found : List (String × String)}
    (h : path ∉ found.map Prod.fst) (fresh : Nat) (r : Modems) :
    (modems fresh found r).identityOf? path = r.identityOf? path := by
  induction found generalizing fresh r with
  | nil => rfl
  | cons first rest ih =>
    obtain ⟨hFirst, hRest⟩ := not_or.mp (mt List.mem_cons.mpr h)
    rw [modems, ih hRest, Registry.identityOf?_add, if_neg fun hAt => hFirst hAt.1.symm]

/-- Modems that are found at different paths are recorded with their identities. -/
theorem identityOf?_modems {found : List (String × String)} (hPaths : (found.map Prod.fst).Nodup)
    {path identity : String} (hFound : (path, identity) ∈ found) (fresh : Nat) {r : Modems}
    (hNew : r.identityOf? path = none) :
    (modems fresh found r).identityOf? path = if identity = "" then none else some identity := by
  induction found generalizing fresh r with
  | nil => cases hFound
  | cons first rest ih =>
    obtain ⟨hFirst, hRest⟩ := List.nodup_cons.mp hPaths
    rcases List.mem_cons.mp hFound with rfl | hLater
    · rw [modems, identityOf?_modems_of_notMem hFirst, Registry.identityOf?_add, hNew]
      by_cases hEmpty : identity = "" <;> simp [hEmpty]
    · have hOther : first.1 ≠ path := fun h => hFirst (h ▸ List.mem_map_of_mem hLater)
      refine ih hRest hLater (fresh + 1) ?_
      rw [Registry.identityOf?_add, if_neg fun hAt => hOther hAt.1, hNew]

theorem isModem_ofBus (path : String) (interfaces : List (String × List (String × Bus.Value))) :
    (Announcement.ofBus path interfaces).isModem =
      (Text.beginsWith path Bus.modemPathStart &&
        interfaces.any fun i => i.1 == Bus.Interface.modem) := by
  rw [Announcement.isModem, Announcement.ofBus, List.any_map]
  rfl

/-! ## Starting -/

/-- Whatever keeps the objects from being known, the daemon counts as out of reach. -/
theorem unreachable_eq (e : Error) : ∃ reason, unreachable e = .connectionFailed reason := by
  cases e <;> exact ⟨_, rfl⟩

theorem run_start_of_error {e : Error} (h : (enumerate.run answer true s).result = .error e) :
    (start.run answer true s).result = .error (unreachable e) := by
  have hAttempt := Program.result_attempt enumerate answer true s
  rw [h] at hAttempt
  exact Program.result_bind hAttempt

/-- The modems on a list that carry no identity. -/
def unidentified (objects : ObjectList) : List Announcement :=
  (listed objects).filter fun a => a.isModem && a.identity?.isNone

theorem run_start_of_listing {objects : ObjectList} {s' : σ} (h : Listing answer s objects s') :
    ∃ asked found, (start.run answer true s).result = .ok found ∧
      (start.run answer true s).trace.map Prod.fst =
        [.subscribe announcements, .subscribe removals, objectsQuery] ++ asked.map Prod.fst ∧
      asked ⊆ (start.run answer true s).trace ∧ Identified (listed objects) asked found := by
  obtain ⟨hResult, -, hTrace⟩ := run_of_listing h
  have hAttempt := Program.run_attempt enumerate answer true s
  have hObjects : (enumerate.attempt.run answer true s).result = .ok (.ok (listed objects)) :=
    (Program.result_attempt _ _ _ _).trans (congrArg Except.ok hResult)
  obtain ⟨found, hFound, hIdentified⟩ :=
    run_identifyAll (listed objects) answer (enumerate.attempt.run answer true s).state
  have hStart : start.run answer true s = _ := Program.run_bind_of_ok hObjects
  rw [hStart]
  refine ⟨_, found, hFound, ?_, List.subset_append_right _ _, hIdentified⟩
  rw [hAttempt, List.map_append, hTrace]

/-- The registry that a start ends with lists the modems on the list. -/
theorem mem_paths_modems {objects : ObjectList} {asked : List (Bus.Query × Bus.Reply)}
    {found : List (String × String)} (h : Identified (listed objects) asked found) (path : String) :
    path ∈ (modems 0 found .empty).list.map Tracked.path ↔
      Text.beginsWith path Bus.modemPathStart = true ∧
        ∃ o ∈ objects, o.1 = path ∧ ∃ i ∈ o.2, i.1 = Bus.Interface.modem := by
  have hFound : path ∈ found.map Prod.fst ↔ ∃ o ∈ objects, o.1 = path ∧
      (Announcement.ofBus o.1 o.2).isModem = true := by
    simp [h.paths, listed, List.mem_map, List.mem_filter, Announcement.ofBus]
  rw [Registry.mem_paths_iff, knows_modems]
  refine (Bool.or_eq_true_iff.trans (or_iff_right Bool.false_ne_true)).trans ?_
  rw [List.contains_iff_mem, hFound]
  constructor
  · rintro ⟨o, ho, rfl, hModem⟩
    rw [isModem_ofBus, Bool.and_eq_true_iff] at hModem
    obtain ⟨i, hi, hName⟩ := List.any_eq_true.mp hModem.2
    exact ⟨hModem.1, o, ho, rfl, i, hi, eq_of_beq hName⟩
  · rintro ⟨hBelow, o, ho, rfl, i, hi, hName⟩
    refine ⟨o, ho, rfl, ?_⟩
    rw [isModem_ofBus, hBelow, Bool.true_and]
    exact List.any_eq_true.mpr ⟨i, hi, beq_iff_eq.mpr hName⟩

/-- The registry that a start ends with has the identities that were found. -/
theorem identityOf?_of_identified {objects : ObjectList} {asked : List (Bus.Query × Bus.Reply)}
    {found : List (String × String)} (h : Identified (listed objects) asked found)
    (hDistinct : (objects.map Prod.fst).Nodup) {a : Announcement} (ha : a ∈ listed objects)
    (hModem : a.isModem = true) :
    let recorded := (modems 0 found .empty).identityOf? a.path
    (∀ identity, a.identity? = some identity → recorded = some identity) ∧
      (a.identity? = none → ∃ r, (imeiQuery a.path, r) ∈ asked ∧
        recorded = (imeiIn r).toOption.filter (!String.isEmpty ·)) := by
  intro recorded
  obtain ⟨part, identity, hPart, hSubset, hFound⟩ := h.mem ha hModem
  have hPaths : (found.map Prod.fst).Nodup := by
    have hListed : ((listed objects).map Announcement.path).Nodup := by
      simpa [listed, Announcement.ofBus, Function.comp_def] using hDistinct
    rw [h.paths]
    exact hListed.sublist (List.filter_sublist.map _)
  have hRecorded : recorded = if identity = "" then none else some identity :=
    identityOf?_modems hPaths hFound 0 rfl
  cases hPart with
  | carried hCarried =>
    refine ⟨fun other hOther => ?_, fun hNone => ?_⟩
    · rw [hRecorded, if_neg (Announcement.ne_empty_of_identity? hCarried), ← hCarried, hOther]
    · rw [hCarried] at hNone
      cases hNone
  | asked r hNone =>
    refine ⟨fun other hOther => ?_, fun _ => ⟨r, hSubset (List.mem_singleton.mpr rfl), ?_⟩⟩
    · rw [hNone] at hOther
      cases hOther
    · rw [hRecorded]
      cases imeiIn r with
      | error e => rfl
      | ok text => by_cases hEmpty : text = "" <;> simp [hEmpty, Except.toOption, Option.filter]

/-- **A start is all or nothing, and no modem spoils it.** A manager starts exactly if there is a
bus, both subscriptions are taken and the reply to the question for the objects is a list of objects
with interface names. Every other start ends with the error that the daemon cannot be reached.

A manager that has started lists the paths of the listed objects that are modems, each of them once.
After the objects were listed, it has asked for nothing but the IMEI of the modems that carry no
identity, once each. What became of these questions changes nothing but the identities: a modem that
carries one has it, and any other has the IMEI of the reply, if it is one and not empty. -/
theorem start_is_all_or_nothing {σ : Type} (config : Config) (bus : Except String Unit)
    (answer : σ → Bus.Query → Bus.Reply × σ) (s : σ) :
    let outcome := (connect bus).run answer true s
    ((∃ found, outcome.result = .ok found) ↔
      bus = .ok () ∧ ∃ objects s', Listing answer s objects s') ∧
    (∀ e, outcome.result = .error e → ∃ reason, e = .connectionFailed reason) ∧
    ∀ found objects s', outcome.result = .ok found → Listing answer s objects s' →
      let modems := (Client.ofModems config found).modems
      (modems.list.map Tracked.path).Nodup ∧
      (∀ path, path ∈ modems.list.map Tracked.path ↔
        Text.beginsWith path Bus.modemPathStart = true ∧
          ∃ o ∈ objects, o.1 = path ∧ ∃ i ∈ o.2, i.1 = Bus.Interface.modem) ∧
      outcome.trace.map Prod.fst =
        [.subscribe announcements, .subscribe removals, objectsQuery] ++
          (unidentified objects).map (fun a => imeiQuery a.path) ∧
      ((objects.map Prod.fst).Nodup → ∀ a ∈ listed objects, a.isModem = true →
        (∀ identity, a.identity? = some identity → modems.identityOf? a.path = some identity) ∧
        (a.identity? = none → ∃ r, (imeiQuery a.path, r) ∈ outcome.trace ∧
          modems.identityOf? a.path = (imeiIn r).toOption.filter (!String.isEmpty ·))) := by
  intro outcome
  cases bus with
  | error reason =>
    have hOutcome : outcome = ⟨.error (.connectionFailed reason), s, []⟩ := rfl
    rw [hOutcome]
    exact ⟨⟨nofun, nofun⟩, fun e he => ⟨reason, (Except.error.inj he).symm⟩, nofun⟩
  | ok reached =>
    have hOutcome : outcome = start.run answer true s := rfl
    rw [hOutcome]
    cases hEnumerate : (enumerate.run answer true s).result with
    | error e =>
      have hNone : ∀ objects s', ¬ Listing answer s objects s' := by
        intro objects s' h
        obtain ⟨hResult, -⟩ := run_of_listing h
        rw [hEnumerate] at hResult
        cases hResult
      rw [run_start_of_error hEnumerate]
      refine ⟨⟨nofun, fun ⟨_, objects, s', h⟩ => absurd h (hNone objects s')⟩, fun e' he => ?_,
        nofun⟩
      obtain ⟨reason, hReason⟩ := unreachable_eq e
      exact ⟨reason, (Except.error.inj he).symm.trans hReason⟩
    | ok as =>
      obtain ⟨objects, s', hListing⟩ := listing_of_ok hEnumerate
      obtain ⟨-, found, hResult, -⟩ := run_start_of_listing hListing
      refine ⟨iff_of_true ⟨found, hResult⟩ ⟨rfl, objects, s', hListing⟩, fun e he => ?_, ?_⟩
      · rw [hResult] at he
        cases he
      · intro found objects s' hFound hListing
        obtain ⟨asked, found', hResult, hTrace, hAsked, hIdentified⟩ :=
          run_start_of_listing hListing
        obtain rfl : found = found' := Except.ok.inj (hFound.symm.trans hResult)
        refine ⟨distinct_modems 0 found List.nodup_nil, mem_paths_modems hIdentified, ?_, ?_⟩
        · rw [hTrace, hIdentified.questions]
          rfl
        · intro hDistinct a ha hModem
          obtain ⟨hCarried, hTold⟩ := identityOf?_of_identified hIdentified hDistinct ha hModem
          refine ⟨hCarried, fun hNone => ?_⟩
          obtain ⟨r, hr, hRecorded⟩ := hTold hNone
          exact ⟨r, hAsked hr, hRecorded⟩

/-- A start with four modems. One carries an equipment identifier; of the others, one cannot tell
its IMEI, one tells something else and one tells it. -/
theorem start_among_bad_modems :
    let modem (n : String) := "/org/freedesktop/ModemManager1/Modem/" ++ n
    let mute : Bus.Content := .refusal "org.freedesktop.DBus.Error.Failed" none
    let w : Bus.World :=
      ⟨true, true,
        [(modem "0", [(Bus.Interface.modem, [("EquipmentIdentifier", .value (.string "E0") false)]),
            (Bus.Interface.modem3gpp, [("Imei", mute)])]),
          (modem "1", [(Bus.Interface.modem, []), (Bus.Interface.modem3gpp, [("Imei", mute)])]),
          (modem "2", [(Bus.Interface.modem3gpp, [("Imei", .value (.uint32 7) false)]),
            (Bus.Interface.modem, [])]),
          (modem "3", [(Bus.Interface.modem, []),
            (Bus.Interface.modem3gpp, [("Imei", .value (.string "356938035643809") true)])]),
          ("/org/freedesktop/ModemManager1/SIM/0", [(Bus.Interface.sim, [])])], []⟩
    let outcome := (connect (.ok ())).run Scene.ask true ⟨w, [], []⟩
    ∃ found, outcome.result = .ok found ∧
      (∃ s', Listing Scene.ask ⟨w, [], []⟩ w.managedObjects s') ∧
      let modems := (Client.ofModems {} found).modems
      modem "1" ∈ modems.list.map Tracked.path ∧ modem "2" ∈ modems.list.map Tracked.path ∧
      outcome.trace.map Prod.fst =
        [.subscribe announcements, .subscribe removals, objectsQuery, imeiQuery (modem "1"),
          imeiQuery (modem "2"), imeiQuery (modem "3")] ∧
      modems.identityOf? (modem "0") = some "E0" := by
  intro modem mute w outcome
  have hListing : Listing Scene.ask ⟨w, [], []⟩ w.managedObjects
      ⟨w, [objectsQuery], []⟩ := by
    refine ⟨_, _, _, _, rfl, rfl, rfl, ?_⟩
    subst w mute modem
    decide
  obtain ⟨hStarts, -, hStarted⟩ :=
    start_is_all_or_nothing {} (.ok ()) Scene.ask (⟨w, [], []⟩ : Scene)
  obtain ⟨found, hFound⟩ := hStarts.mpr ⟨rfl, _, _, hListing⟩
  obtain ⟨-, hPaths, hTrace, hIdentities⟩ := hStarted found _ _ hFound hListing
  have hDistinct : (w.managedObjects.map Prod.fst).Nodup := by
    subst w mute modem
    decide
  obtain ⟨a, ha, hPath, hModem, hCarried⟩ : ∃ a ∈ listed w.managedObjects,
      a.path = modem "0" ∧ a.isModem = true ∧ a.identity? = some "E0" := by
    subst w mute modem
    decide
  refine ⟨found, hFound, ⟨_, hListing⟩, (hPaths _).mpr ?_, (hPaths _).mpr ?_, hTrace.trans ?_,
    hPath ▸ (hIdentities hDistinct a ha hModem).1 _ hCarried⟩
  · subst w mute modem
    decide
  · subst w mute modem
    decide
  · subst w mute modem
    rfl

end Manager

end ModemLink
