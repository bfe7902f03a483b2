import ModemLink.Bus.World

/-!
# The tree of objects

Which interfaces the objects on a bus have, after interfaces were added and removed.

* `Change`: a set of interfaces that an object gains or loses.
* `exposes_merge`, `exposes_erase`: what an object has after a change.
* `Lists`: a reply that lists the objects of the modem daemon, in any order.
-/

namespace ModemLink.Bus

theorem lookup_assign {α : Type} (key other : String) (value : α) (entries : List (String × α)) :
    (assign key value entries).lookup other =
      if other == key then some value else entries.lookup other := by
  induction entries with
  | nil => cases h : other == key <;> simp [assign, List.lookup_cons, h]
  | cons e rest ih =>
    obtain ⟨k, v⟩ := e
    unfold assign
    by_cases hk : k = key
    · subst k
      cases h : other == key <;> simp [List.lookup_cons, h]
    · by_cases ho : other = k
      · subst other
        simp [hk]
      · simp [List.lookup_cons, hk, ih, beq_false_of_ne ho]

theorem any_assign {α : Type} (key name : String) (value : α) (entries : List (String × α)) :
    (assign key value entries).any (·.1 == name) = (key == name || entries.any (·.1 == name)) := by
  induction entries with
  | nil => simp [assign]
  | cons e rest ih =>
    unfold assign
    by_cases hk : e.1 = key
    · simp [hk]
    · simp only [beq_iff_eq, hk, if_false, List.any_cons, ih]
      rw [Bool.or_left_comm]

theorem contains_map_fst {α : Type} (entries : List (String × α)) (name : String) :
    (entries.map Prod.fst).contains name = entries.any (·.1 == name) := by
  rw [List.contains_eq_any_beq, List.any_map]
  simp only [Function.comp_def, Bool.beq_comm]

namespace World

variable (w : World)

/-- Whether an object has an interface. -/
def exposes (path interface : String) : Bool := (w.interfaces path).any (·.1 == interface)

theorem exists_of_exposes {path interface : String} (h : w.exposes path interface = true) :
    ∃ o ∈ w.objects, o.1 = path ∧ ∃ i ∈ o.2, i.1 = interface := by
  rw [exposes, World.interfaces] at h
  cases hLookup : w.objects.lookup path with
  | none =>
    rw [hLookup] at h
    cases h
  | some interfaces =>
    rw [hLookup] at h
    obtain ⟨first, rest, hObjects, -⟩ := List.lookup_eq_some_iff.mp hLookup
    obtain ⟨i, hi, hName⟩ := List.any_eq_true.mp h
    exact ⟨(path, interfaces), by simp [hObjects], rfl, i, hi, eq_of_beq hName⟩

theorem interfaces_setInterfaces (path other : String) (interfaces : Interfaces) :
    (w.setInterfaces path interfaces).interfaces other =
      if other == path then interfaces else w.interfaces other := by
  unfold setInterfaces World.interfaces
  rw [lookup_assign]
  cases other == path <;> rfl

theorem exposes_assign (path interface other name : String)
    (properties : List (String × Content)) :
    (w.setInterfaces path (assign interface properties (w.interfaces path))).exposes other name =
      (w.exposes other name || other == path && interface == name) := by
  unfold exposes
  rw [interfaces_setInterfaces]
  by_cases h : other = path
  · subst other
    simp [any_assign, Bool.or_comm]
  · simp [h]

theorem exposes_merge (path other name : String) (interfaces : Interfaces) :
    (w.merge path interfaces).exposes other name =
      (w.exposes other name || other == path && interfaces.any (·.1 == name)) := by
  have hSet : ∀ (w : World) (interface : String) (properties : List (String × Content)),
      w.exposes path interface = true →
      ∀ other name,
        (properties.foldl (fun w p => w.set path interface p.1 p.2) w).exposes other name =
          w.exposes other name := by
    intro w interface properties
    induction properties generalizing w with
    | nil => exact fun _ _ _ => rfl
    | cons p rest ih =>
      intro hHas other name
      have hSame : ∀ other name, (w.set path interface p.1 p.2).exposes other name =
          w.exposes other name := by
        intro other name
        rw [set, exposes_assign]
        by_cases h : other = path ∧ interface = name
        · obtain ⟨rfl, rfl⟩ := h
          simp [hHas]
        · simp only [not_and] at h
          by_cases ho : other = path
          · simp [ho, h ho]
          · simp [ho]
      rw [List.foldl_cons, ih _ ((hSame path interface).trans hHas), hSame]
  unfold merge
  induction interfaces generalizing w with
  | nil => simp
  | cons i rest ih =>
    have hHas : (w.ensure path i.1).exposes path i.1 = true := by
      rw [ensure, exposes_assign]
      simp
    rw [List.foldl_cons, ih, hSet _ _ _ hHas, ensure, exposes_assign, List.any_cons,
      Bool.and_or_distrib_left, Bool.or_assoc]

theorem exposes_erase (path other name : String) (names : List String) :
    (w.erase path names).exposes other name =
      (w.exposes other name && !(other == path && names.contains name)) := by
  unfold exposes erase
  rw [interfaces_setInterfaces]
  by_cases h : other = path
  · subst other
    simp only [beq_self_eq_true, if_true, List.any_filter, Bool.true_and]
    induction w.interfaces path with
    | nil => rfl
    | cons i rest ih =>
      rw [List.any_cons, List.any_cons, ih]
      by_cases hi : i.1 = name
      · simp [hi]
      · simp [beq_false_of_ne hi]
  · simp [h]

theorem any_announcedOf (interfaces : Interfaces) (name : String) :
    (announcedOf interfaces).any (·.1 == name) = interfaces.any (·.1 == name) := by
  have hFold : ∀ done : List (String × List (String × Value)),
      (interfaces.foldl (fun done i => assign i.1 (announced i.2) done) done).any (·.1 == name) =
        (done.any (·.1 == name) || interfaces.any (·.1 == name)) := by
    induction interfaces with
    | nil => simp
    | cons i rest ih =>
      intro done
      rw [List.foldl_cons, ih, any_assign, List.any_cons, ← Bool.or_assoc,
        Bool.or_comm (done.any _)]
  exact (hFold []).trans (Bool.false_or _)

/-! ## Changes of the tree -/

end World

/-- Interfaces that an object gains, with their properties, or loses. -/
inductive Change
  | gained (path : String) (interfaces : Interfaces)
  | lost (path : String) (names : List String)

namespace Change

def path : Change → String
  | gained path _ => path
  | lost path _ => path

/-- The interfaces that a change is about. -/
def names : Change → List String
  | gained _ interfaces => interfaces.map Prod.fst
  | lost _ names => names

def isGain : Change → Bool
  | gained _ _ => true
  | lost _ _ => false

/-- Whether a change is about an interface of an object. -/
def touches (path interface : String) (c : Change) : Bool :=
  path == c.path && c.names.contains interface

end Change

namespace World

def change (w : World) : Change → World
  | .gained path interfaces => w.merge path interfaces
  | .lost path names => w.erase path names

/-- The bus after changes in turn. -/
def changeAll (w : World) (changes : List Change) : World := changes.foldl change w

theorem exposes_change (w : World) (c : Change) (path interface : String) :
    (w.change c).exposes path interface =
      if c.touches path interface then c.isGain else w.exposes path interface := by
  cases c with
  | gained object interfaces =>
    rw [change, exposes_merge, Change.touches, Change.names, Change.path, contains_map_fst]
    cases path == object && interfaces.any (·.1 == interface) <;> simp [Change.isGain]
  | lost object names =>
    rw [change, exposes_erase, Change.touches, Change.names, Change.path]
    cases path == object && names.contains interface <;> simp [Change.isGain]

theorem exposes_changeAll (w : World) (changes : List Change) (path interface : String) :
    (w.changeAll changes).exposes path interface =
      changes.foldl (fun has c => if c.touches path interface then c.isGain else has)
        (w.exposes path interface) := by
  induction changes generalizing w with
  | nil => rfl
  | cons c rest ih =>
    rw [changeAll, List.foldl_cons, ← changeAll, ih, exposes_change, List.foldl_cons]

/-! ## Listing the tree -/

/-- The listed objects are those of the modem daemon, each with the interfaces that it has. -/
def Lists (w : World) (objects : List (String × List (String × List (String × Value)))) : Prop :=
  ∀ path interface, (∃ o ∈ objects, o.1 = path ∧ o.2.any (·.1 == interface) = true) ↔
    Text.beginsWith path (managerPath ++ "/") = true ∧ w.exposes path interface = true

theorem mem_iff_lookup {κ α : Type} [BEq κ] [LawfulBEq κ] {entries : List (κ × α)}
    (h : (entries.map Prod.fst).Nodup) (key : κ) (value : α) :
    (key, value) ∈ entries ↔ entries.lookup key = some value := by
  induction entries with
  | nil => simp
  | cons e rest ih =>
    obtain ⟨k, v⟩ := e
    obtain ⟨hNew, hRest⟩ := List.nodup_cons.mp h
    rw [List.mem_cons, ih hRest, List.lookup_cons]
    by_cases hk : key = k
    · subst key
      have hNone : rest.lookup k = none := by
        refine List.lookup_eq_none_iff.mpr fun p hp => ?_
        have hNe : k ≠ p.1 := fun he => hNew (List.mem_map.mpr ⟨p, hp, he.symm⟩)
        simpa using hNe
      simp [hNone, eq_comm]
    · simp [hk, beq_false_of_ne hk]

/-- The daemon's own reply, in any order, is such a list if no path is there twice. -/
theorem lists_of_perm {w : World} {objects : List (String × List (String × List (String × Value)))}
    (hDistinct : (w.objects.map Prod.fst).Nodup) (hPerm : objects.Perm w.managedObjects) :
    w.Lists objects := by
  intro path interface
  have hNames : ∀ interfaces : Interfaces,
      ((interfaces.map fun i => (i.1, announced i.2)).any (·.1 == interface)) =
        interfaces.any (·.1 == interface) := by
    intro interfaces
    rw [List.any_map]
    rfl
  constructor
  · rintro ⟨o, ho, rfl, hHas⟩
    obtain ⟨found, hFound, rfl⟩ := List.mem_map.mp (hPerm.mem_iff.mp ho)
    obtain ⟨hMem, hBelow⟩ := List.mem_filter.mp hFound
    have hLookup := (mem_iff_lookup hDistinct found.1 found.2).mp hMem
    rw [hNames] at hHas
    refine ⟨hBelow, ?_⟩
    rwa [exposes, World.interfaces, hLookup]
  · rintro ⟨hBelow, hHas⟩
    rw [exposes, World.interfaces] at hHas
    cases hLookup : w.objects.lookup path with
    | none =>
      rw [hLookup] at hHas
      cases hHas
    | some interfaces =>
      have hMem := (mem_iff_lookup hDistinct path interfaces).mpr hLookup
      rw [hLookup] at hHas
      refine ⟨(path, interfaces.map fun i => (i.1, announced i.2)), hPerm.mem_iff.mpr ?_, rfl, ?_⟩
      · exact List.mem_map.mpr ⟨(path, interfaces), List.mem_filter.mpr ⟨hMem, hBelow⟩, rfl⟩
      · rwa [hNames]

end World

end ModemLink.Bus
