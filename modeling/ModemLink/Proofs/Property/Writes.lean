import Mathlib.Data.List.Induction
import Mathlib.Data.List.Nodup
import ModemLink.Proofs.Property.Reading
import ModemLink.Property.Shelf

/-!
# Bags hold what was last written

Bags are written to in several ways, also from one another. After any history a bag has under a key
what was last written there since the bag was begun, and every read of the bag follows from that.

* `Bag.Last`, `Bag.find?_foldl_insert_iff`: what a list of entries leaves under a key.
* `Write.Writes`, `Write.Replaces`, `find?_write_iff`: what one change does to a key.
* `LastWrite`, `find?_after_iff`: what a history leaves under a key.
* `Copies`: what a copy of a property from one bag to another can do.
* `bags_hold_last_writes`: reads, keys, answers and copies after any history.
-/

namespace ModemLink

namespace Bag

/-! ## Lists of entries -/

section

variable {α : Type} (form : α → Option Property)

/-- Of the entries under a key, some of which may have no form as a property, the last one that has
a form has this one. -/
def Last (entries : List (String × α)) (key : String) (p : Property) : Prop :=
  ∃ before v after, entries = before ++ (key, v) :: after ∧ form v = some p ∧
    ∀ e ∈ after, e.1 = key → form e.2 = none

theorem last_cons {e : String × α} {entries : List (String × α)} {key : String} {p : Property} :
    Last form (e :: entries) key p ↔
      Last form entries key p ∨
        (e.1 = key ∧ form e.2 = some p ∧ ∀ d ∈ entries, d.1 = key → form d.2 = none) := by
  constructor
  · rintro ⟨before, v, after, hSplit, hForm, hAfter⟩
    obtain ⟨rfl, hHead⟩ | ⟨before', rfl, rfl⟩ := List.cons_eq_append_iff.mp hSplit
    · obtain ⟨rfl, rfl⟩ := List.cons.inj hHead
      exact .inr ⟨rfl, hForm, hAfter⟩
    · exact .inl ⟨before', v, after, rfl, hForm, hAfter⟩
  · rintro (⟨before, v, after, rfl, hForm, hAfter⟩ | ⟨rfl, hForm, hAfter⟩)
    · exact ⟨e :: before, v, after, rfl, hForm, hAfter⟩
    · exact ⟨[], e.2, entries, rfl, hForm, hAfter⟩

theorem exists_last_iff {entries : List (String × α)} {key : String} :
    (∃ p, Last form entries key p) ↔ ∃ v, (key, v) ∈ entries ∧ form v ≠ none := by
  constructor
  · rintro ⟨p, before, v, after, rfl, hForm, -⟩
    exact ⟨v, List.mem_append_right before List.mem_cons_self, by simp [hForm]⟩
  · rintro ⟨v, hMem, hForm⟩
    induction entries generalizing v with
    | nil => cases hMem
    | cons e rest ih =>
      by_cases hRest : ∃ u, (key, u) ∈ rest ∧ form u ≠ none
      · obtain ⟨u, hu, hFormed⟩ := hRest
        obtain ⟨p, hp⟩ := ih u hu hFormed
        exact ⟨p, (last_cons form).mpr (.inl hp)⟩
      · obtain rfl | hMem := List.mem_cons.mp hMem
        · obtain ⟨p, hp⟩ := Option.ne_none_iff_exists'.mp hForm
          refine ⟨p, (last_cons form).mpr (.inr ⟨rfl, hp, ?_⟩)⟩
          rintro ⟨_, u⟩ hu rfl
          exact Decidable.of_not_not fun hFormed => hRest ⟨u, hu, hFormed⟩
        · exact absurd ⟨v, hMem, hForm⟩ hRest

/-- The entries that have a form, with it. -/
def formed (entries : List (String × α)) : List (String × Property) :=
  entries.filterMap fun e => (form e.2).map fun p => (e.1, p)

theorem find?_foldl_insert_iff {entries : List (String × α)} {b : Bag} {key : String}
    {p : Property} :
    ((formed form entries).foldl (fun b e => b.insert e.1 e.2) b).find? key = some p ↔
      Last form entries key p ∨
        (b.find? key = some p ∧ ∀ e ∈ entries, e.1 = key → form e.2 = none) := by
  induction entries generalizing b with
  | nil => simp [formed, Last]
  | cons e rest ih =>
    rw [last_cons, List.forall_mem_cons]
    cases hForm : form e.2 with
    | none =>
      rw [formed, List.filterMap_cons_none (by rw [hForm]; rfl), ← formed, ih]
      simp
    | some q =>
      rw [formed, List.filterMap_cons_some (by rw [hForm]; rfl), ← formed, List.foldl_cons, ih]
      by_cases hKey : key = e.1
      · simp [hKey, and_comm]
      · simp [hKey, Ne.symm hKey, find?_insert_of_ne]

/-- A bag that is made from the entries that have a form. -/
theorem find?_ofList_formed_iff {entries : List (String × α)} {key : String} {p : Property} :
    (ofList (formed form entries)).find? key = some p ↔ Last form entries key p := by
  rw [ofList, find?_foldl_insert_iff]
  simp

end

theorem formed_some (entries : List (String × Property)) : formed some entries = entries :=
  List.filterMap_some

theorem find?_ofList_iff {entries : List (String × Property)} {key : String} {p : Property} :
    (ofList entries).find? key = some p ↔ Last some entries key p := by
  rw [← find?_ofList_formed_iff, formed_some]

theorem find?_ofBus_iff {entries : List (String × Bus.Value)} {key : String} {p : Property} :
    (ofBus entries).find? key = some p ↔ Last Property.ofBus? entries key p :=
  find?_ofList_formed_iff Property.ofBus?

theorem last_some_iff_mem {entries : List (String × Property)} {key : String} {p : Property}
    (hKeys : (entries.map Prod.fst).Nodup) : Last some entries key p ↔ (key, p) ∈ entries := by
  constructor
  · rintro ⟨before, v, after, rfl, hForm, -⟩
    cases hForm
    exact List.mem_append_right before List.mem_cons_self
  · intro hMem
    obtain ⟨before, after, rfl⟩ := List.append_of_mem hMem
    rw [List.map_append, List.map_cons, List.nodup_middle, List.nodup_cons] at hKeys
    refine ⟨before, p, after, rfl, rfl, fun e he hKey => absurd ?_ hKeys.1⟩
    exact List.mem_append_right _ (List.mem_map.mpr ⟨e, he, hKey⟩)

/-- In whatever order entries with keys of their own are inserted, the bag is the same. -/
theorem foldl_insert_perm {entries entries' : List (String × Property)} (b : Bag)
    (hPerm : entries.Perm entries') (hKeys : (entries.map Prod.fst).Nodup) :
    entries.foldl (fun b e => b.insert e.1 e.2) b =
      entries'.foldl (fun b e => b.insert e.1 e.2) b := by
  have hKeys' : (entries'.map Prod.fst).Nodup := (hPerm.map Prod.fst).nodup_iff.mp hKeys
  have hFind : ∀ {l : List (String × Property)}, (l.map Prod.fst).Nodup → ∀ {key p},
      (l.foldl (fun b e => b.insert e.1 e.2) b).find? key = some p ↔
        (key, p) ∈ l ∨ (b.find? key = some p ∧ ∀ e ∈ l, e.1 = key → some e.2 = none) := by
    intro l hl key p
    rw [← last_some_iff_mem hl, ← find?_foldl_insert_iff, formed_some]
  refine ext_find? fun key => Option.ext fun p => ?_
  rw [hFind hKeys, hFind hKeys']
  simp only [hPerm.mem_iff]

theorem find?_insert_iff {b : Bag} {key other : String} {p q : Property} :
    (b.insert key q).find? other = some p ↔
      (other = key ∧ p = q) ∨ (b.find? other = some p ∧ other ≠ key) := by
  by_cases hKey : other = key
  · simp [hKey, eq_comm]
  · simp [hKey, find?_insert_of_ne]

/-! ## Copies -/

section

variable {target source : Bag} {t : PropertyType} {key newKey : String} {p : Property}

theorem copyAs_of_absent (h : source.find? key = none) :
    target.copyAs source t key newKey = .ok (target, false) := by
  rw [copyAs_eq, Field.value_of_find?_eq_none h]
  rfl

theorem copyAs_of_fits (h : source.find? key = some p) (hFits : t.Fits p) :
    target.copyAs source t key newKey = .ok (target.insert newKey p, true) := by
  obtain ⟨v, hReads⟩ := PropertyType.exists_reads_iff.mpr hFits
  have hWrite := PropertyType.read?_eq_some_iff.mp (PropertyType.read?_eq_some_iff_reads.mpr hReads)
  rw [copyAs_eq, Field.value_of_find?_eq_some h, Field.image_typed.mpr ⟨v, hWrite, hWrite⟩]
  rfl

theorem copyAs_of_not_fits (h : source.find? key = some p) (hFits : ¬ t.Fits p) :
    target.copyAs source t key newKey = .error (.typeMismatch key t p.kind) := by
  rw [copyAs_eq, Field.value_of_find?_eq_some h, Field.typed]
  simp only [PropertyType.read?_eq_none_iff.mpr hFits]
  rfl

end

/-! ## Keys -/

theorem mem_keys_iff {b : Bag} {key : String} : key ∈ b.keys ↔ ∃ p, b.find? key = some p := by
  obtain ⟨entries, hAscending⟩ := b
  simp only [keys, find?]
  clear hAscending
  induction entries with
  | nil => simp [Entries.find?]
  | cons e rest ih =>
    rw [List.map_cons, List.mem_cons, ih]
    by_cases hKey : e.1 = key
    · simp [Entries.find?, hKey]
    · simp [Entries.find?, hKey, Ne.symm hKey]

theorem pairwise_keys (b : Bag) : b.keys.Pairwise (· < ·) :=
  List.pairwise_map.mpr b.ascending

end Bag

namespace Shelf

theorem bag_set_self (s : Shelf) (name : String) (b : Bag) : (s.set name b).bag name = b := by
  simp [set, bag]

theorem bag_set_of_ne (s : Shelf) {name other : String} (h : other ≠ name) (b : Bag) :
    (s.set name b).bag other = s.bag other := by
  simp [set, bag, Entries.find?_put_of_ne h]

/-! ## One change -/

/-- A change, made on a shelf, writes a property under a key. -/
def Write.Writes (s : Shelf) (key : String) (p : Property) : Write → Prop
  | .insert k q => key = k ∧ p = q
  | .insertAs k t v => key = k ∧ t.Reads p v
  | .copyAs source t k newKey => key = newKey ∧ (s.bag source).find? k = some p ∧ t.Fits p
  | .assign source => (s.bag source).find? key = some p
  | .ofList entries => Bag.Last some entries key p
  | .ofBus entries => Bag.Last Property.ofBus? entries key p

/-- A change begins the bag anew. -/
def Write.Renews : Write → Prop
  | .assign _ | .ofList _ | .ofBus _ => True
  | .insert _ _ | .insertAs _ _ _ | .copyAs _ _ _ _ => False

/-- After a change, made on a shelf, what was under a key before is not there any more. -/
def Write.Replaces (s : Shelf) (key : String) (w : Write) : Prop :=
  w.Renews ∨ ∃ p, w.Writes s key p

theorem bag_write_of_ne (s : Shelf) {name other : String} (h : other ≠ name) (w : Write) :
    (s.write name w).1.bag other = s.bag other := by
  cases w with
  | copyAs source t key newKey =>
    rw [write]
    split
    · exact bag_set_of_ne s h _
    · rfl
  | insert | insertAs | assign | ofList | ofBus => exact bag_set_of_ne s h _

theorem writes_insertAs_iff {s : Shelf} {key k : String} {t : PropertyType} {v : t.Carrier}
    {p : Property} :
    (Write.insertAs k t v).Writes s key p ↔ key = k ∧ p = t.write v := by
  rw [← PropertyType.read?_eq_some_iff, PropertyType.read?_eq_some_iff_reads, Write.Writes]

theorem writes_copyAs_iff {s : Shelf} {key k source newKey : String} {t : PropertyType}
    {p q : Property} (hFind : (s.bag source).find? k = some q) (hFits : t.Fits q) :
    (Write.copyAs source t k newKey).Writes s key p ↔ key = newKey ∧ p = q := by
  rw [Write.Writes, hFind, Option.some.injEq]
  refine and_congr_right fun _ => ⟨fun h => h.1.symm, ?_⟩
  rintro rfl
  exact ⟨rfl, hFits⟩

/-- A change that puts one property into the bag writes it and leaves the rest as it was. -/
theorem find?_write_of_insert {s : Shelf} {name key k : String} {w : Write} {p q : Property}
    (hBag : (s.write name w).1.bag name = (s.bag name).insert k q) (hRenews : ¬ w.Renews)
    (hWrites : ∀ {key p}, w.Writes s key p ↔ key = k ∧ p = q) :
    ((s.write name w).1.bag name).find? key = some p ↔
      w.Writes s key p ∨ ((s.bag name).find? key = some p ∧ ¬ w.Replaces s key) := by
  rw [hBag, Bag.find?_insert_iff]
  simp [Write.Replaces, hRenews, hWrites]

/-- A change that begins the bag anew leaves there what it writes. -/
theorem find?_write_of_renews {s : Shelf} {name key : String} {w : Write} {p : Property}
    (hRenews : w.Renews)
    (hWrites : ((s.write name w).1.bag name).find? key = some p ↔ w.Writes s key p) :
    ((s.write name w).1.bag name).find? key = some p ↔
      w.Writes s key p ∨ ((s.bag name).find? key = some p ∧ ¬ w.Replaces s key) := by
  simp [Write.Replaces, hRenews, hWrites]

/-- A change that does nothing leaves what there was. -/
theorem find?_write_of_idle {s : Shelf} {name key : String} {w : Write} {p : Property}
    (hBag : (s.write name w).1.bag name = s.bag name) (hReplaces : ¬ w.Replaces s key) :
    ((s.write name w).1.bag name).find? key = some p ↔
      w.Writes s key p ∨ ((s.bag name).find? key = some p ∧ ¬ w.Replaces s key) := by
  have hWrites : ¬ w.Writes s key p := fun h => hReplaces (.inr ⟨p, h⟩)
  simp [hBag, hReplaces, hWrites]

theorem find?_write_self_iff {s : Shelf} {name key : String} {w : Write} {p : Property} :
    ((s.write name w).1.bag name).find? key = some p ↔
      w.Writes s key p ∨ ((s.bag name).find? key = some p ∧ ¬ w.Replaces s key) := by
  cases w with
  | insert k q => exact find?_write_of_insert (bag_set_self s name _) not_false Iff.rfl
  | insertAs k t v =>
    exact find?_write_of_insert (bag_set_self s name _) not_false writes_insertAs_iff
  | copyAs source t k newKey =>
    cases hFind : (s.bag source).find? k with
    | none =>
      refine find?_write_of_idle ?_ (by simp [Write.Replaces, Write.Renews, Write.Writes, hFind])
      rw [write, Bag.copyAs_of_absent hFind]
      exact bag_set_self s name _
    | some q =>
      by_cases hFits : t.Fits q
      · refine find?_write_of_insert ?_ not_false (writes_copyAs_iff hFind hFits)
        rw [write, Bag.copyAs_of_fits hFind hFits]
        exact bag_set_self s name _
      · refine find?_write_of_idle ?_ ?_
        · rw [write, Bag.copyAs_of_not_fits hFind hFits]
        · rintro (⟨⟨⟩⟩ | ⟨p, -, hSource, hFitsToo⟩)
          exact hFits (Option.some.inj (hFind.symm.trans hSource) ▸ hFitsToo)
  | assign source =>
    refine find?_write_of_renews trivial ?_
    rw [write, bag_set_self, Write.Writes]
  | ofList entries =>
    refine find?_write_of_renews trivial ?_
    rw [write, bag_set_self, Bag.find?_ofList_iff, Write.Writes]
  | ofBus entries =>
    refine find?_write_of_renews trivial ?_
    rw [write, bag_set_self, Bag.find?_ofBus_iff, Write.Writes]

/-- What is under a key of a bag after a change: what the change wrote there, or what was there
before, unless this was replaced. -/
theorem find?_write_iff {s : Shelf} {name bag key : String} {w : Write} {p : Property} :
    ((s.write name w).1.bag bag).find? key = some p ↔
      (name = bag ∧ w.Writes s key p) ∨
        ((s.bag bag).find? key = some p ∧ (name = bag → ¬ w.Replaces s key)) := by
  by_cases hName : name = bag
  · subst hName
    simpa using find?_write_self_iff
  · rw [bag_write_of_ne s (Ne.symm hName)]
    simp [hName]

/-! ## Histories -/

/-- The shelf after changes of the bags under names, all empty at first. -/
def after (steps : List (String × Write)) : Shelf :=
  steps.foldl (fun s step => (s.write step.1 step.2).1) empty

/-- A change in a history wrote a property under a key of a bag, and no later change of the bag
replaced it. -/
def LastWrite (steps : List (String × Write)) (bag key : String) (p : Property) : Prop :=
  ∃ (place : Nat) (w : Write), steps[place]? = some (bag, w) ∧
    w.Writes (after (steps.take place)) key p ∧
    ∀ (later : Nat) (w' : Write), place < later → steps[later]? = some (bag, w') →
      ¬ w'.Replaces (after (steps.take later)) key

theorem after_concat (steps : List (String × Write)) (step : String × Write) :
    after (steps ++ [step]) = ((after steps).write step.1 step.2).1 := by
  rw [after, List.foldl_append]
  rfl

/-- What stands at a place of a history with one more change. -/
theorem getElem?_concat_eq_some_iff {steps : List (String × Write)} {last step : String × Write}
    {place : Nat} :
    (steps ++ [last])[place]? = some step ↔
      steps[place]? = some step ∨ (place = steps.length ∧ step = last) := by
  obtain hLt | rfl | hGt := Nat.lt_trichotomy place steps.length
  · simp [List.getElem?_append_left hLt, Nat.ne_of_lt hLt]
  · simp [eq_comm]
  · rw [List.getElem?_eq_none (by simpa using Nat.succ_le_of_lt hGt),
      List.getElem?_eq_none (Nat.le_of_lt hGt)]
    simp [Nat.ne_of_gt hGt]

/-- One more change at the end makes no difference to the changes before a place. -/
theorem take_concat_of_getElem? {steps : List (String × Write)} {last step : String × Write}
    {place : Nat} (h : steps[place]? = some step) :
    (steps ++ [last]).take place = steps.take place :=
  List.take_append_of_le_length (Nat.le_of_lt (List.getElem?_eq_some_iff.mp h).1)

theorem lastWrite_concat {steps : List (String × Write)} {name bag key : String} {w : Write}
    {p : Property} :
    LastWrite (steps ++ [(name, w)]) bag key p ↔
      (name = bag ∧ w.Writes (after steps) key p) ∨
        (LastWrite steps bag key p ∧ (name = bag → ¬ w.Replaces (after steps) key)) := by
  have hAll : (steps ++ [(name, w)]).take steps.length = steps := List.take_left
  constructor
  · rintro ⟨place, w', hAt, hWrites, hKept⟩
    obtain hOld | ⟨rfl, ⟨⟩⟩ := getElem?_concat_eq_some_iff.mp hAt
    · rw [take_concat_of_getElem? hOld] at hWrites
      refine .inr ⟨⟨place, w', hOld, hWrites, fun later w'' hLater hAtLater => ?_⟩, ?_⟩
      · rw [← take_concat_of_getElem? hAtLater]
        exact hKept later w'' hLater (getElem?_concat_eq_some_iff.mpr (.inl hAtLater))
      · rintro rfl
        have hLt : place < steps.length := (List.getElem?_eq_some_iff.mp hOld).1
        have hLast := hKept steps.length w hLt (getElem?_concat_eq_some_iff.mpr (.inr ⟨rfl, rfl⟩))
        rwa [hAll] at hLast
    · rw [hAll] at hWrites
      exact .inl ⟨rfl, hWrites⟩
  · rintro (⟨rfl, hWrites⟩ | ⟨⟨place, w', hOld, hWrites, hKept⟩, hLast⟩)
    · refine ⟨steps.length, w, getElem?_concat_eq_some_iff.mpr (.inr ⟨rfl, rfl⟩), ?_, ?_⟩
      · rwa [hAll]
      · -- No place of the history comes after its last one.
        intro later w' hLater hAtLater
        have hLt := (List.getElem?_eq_some_iff.mp hAtLater).1
        rw [List.length_append, List.length_singleton] at hLt
        omega
    · refine ⟨place, w', getElem?_concat_eq_some_iff.mpr (.inl hOld), ?_, ?_⟩
      · rwa [take_concat_of_getElem? hOld]
      · intro later w'' hLater hAtLater
        obtain hAtOld | ⟨rfl, ⟨⟩⟩ := getElem?_concat_eq_some_iff.mp hAtLater
        · rw [take_concat_of_getElem? hAtOld]
          exact hKept later w'' hLater hAtOld
        · rw [hAll]
          exact hLast rfl

/-- After any history a bag has under a key what was last written there. -/
theorem find?_after_iff {steps : List (String × Write)} {bag key : String} {p : Property} :
    ((after steps).bag bag).find? key = some p ↔ LastWrite steps bag key p := by
  induction steps using List.reverseRecOn with
  | nil =>
    refine iff_of_false nofun ?_
    rintro ⟨place, w, hAt, -⟩
    simp at hAt
  | append_singleton steps step ih => rw [after_concat, find?_write_iff, lastWrite_concat, ih]

/-! ## Copies between bags -/

/-- What a copy after a history gives and does: nothing if the source has nothing under the key; a
refusal that leaves all bags alone if what it has there cannot be read as the type; and otherwise
the same property under the new key, with all else left alone. -/
structure Copies (steps : List (String × Write)) (name source : String) (t : PropertyType)
    (key newKey : String) (next : Shelf × Answer) : Prop where
  absent : (∀ p, ¬ LastWrite steps source key p) →
    next.2 = .copied (.ok false) ∧ ∀ bag, next.1.bag bag = (after steps).bag bag
  refused : ∀ p, LastWrite steps source key p → ¬ t.Fits p →
    next.2 = .copied (.error (.typeMismatch key t p.kind)) ∧
      ∀ bag, next.1.bag bag = (after steps).bag bag
  made : ∀ p, LastWrite steps source key p → t.Fits p →
    next.2 = .copied (.ok true) ∧ (next.1.bag name).find? newKey = some p ∧
      ∀ bag other, (bag, other) ≠ (name, newKey) →
        (next.1.bag bag).find? other = ((after steps).bag bag).find? other

theorem copies (steps : List (String × Write)) (name source : String) (t : PropertyType)
    (key newKey : String) : Copies steps name source t key newKey
      ((after steps).write name (.copyAs source t key newKey)) where
  absent h := by
    have hFind : ((after steps).bag source).find? key = none :=
      Option.eq_none_iff_forall_ne_some.mpr fun p hp => h p (find?_after_iff.mp hp)
    rw [write, Bag.copyAs_of_absent hFind]
    refine ⟨rfl, fun bag => ?_⟩
    by_cases hName : bag = name
    · rw [hName, bag_set_self]
    · exact bag_set_of_ne _ hName _
  refused p h hFits := by
    rw [write, Bag.copyAs_of_not_fits (find?_after_iff.mpr h) hFits]
    exact ⟨rfl, fun _ => rfl⟩
  made p h hFits := by
    rw [write, Bag.copyAs_of_fits (find?_after_iff.mpr h) hFits]
    refine ⟨rfl, ?_, fun bag other hOther => ?_⟩
    · rw [bag_set_self, Bag.find?_insert_self]
    · by_cases hName : bag = name
      · have hKey : other ≠ newKey := fun hKey => hOther (by rw [hName, hKey])
        rw [hName, bag_set_self, Bag.find?_insert_of_ne _ hKey]
      · rw [bag_set_of_ne _ hName]

/-! ## Insertions -/

/-- The changes that insert entries into a bag, one after the other. -/
def inserts (bag : String) (entries : List (String × Property)) : List (String × Write) :=
  entries.map fun e => (bag, .insert e.1 e.2)

theorem bag_after_inserts (steps : List (String × Write)) (bag name : String)
    (entries : List (String × Property)) :
    (after (steps ++ inserts bag entries)).bag name =
      if name = bag then
        entries.foldl (fun b e => b.insert e.1 e.2) ((after steps).bag bag)
      else (after steps).bag name := by
  induction entries using List.reverseRecOn with
  | nil => by_cases hName : name = bag <;> simp [inserts, hName]
  | append_singleton entries e ih =>
    have hSteps : steps ++ inserts bag (entries ++ [e]) =
        steps ++ inserts bag entries ++ [(bag, .insert e.1 e.2)] := by simp [inserts]
    rw [hSteps, after_concat]
    by_cases hName : name = bag
    · rw [if_pos hName] at ih ⊢
      rw [hName] at ih ⊢
      rw [write, bag_set_self, ih, List.foldl_append]
      rfl
    · rw [bag_write_of_ne _ hName, ih, if_neg hName, if_neg hName]

/-- **A bag has under each key what was last written there.** So after any history of changes of any
bags: a typed read fails for the lack of the key if nothing was written there since the bag was
begun, gives the value if the last property fits the type, and is otherwise refused with the key,
the type and the kind of the property; the keys ascend, each once; an insertion answers what was
there before; a copy changes its own key or nothing. The order in which entries with keys of their
own are inserted, or listed for a new bag, makes no difference to any bag. -/
theorem bags_hold_last_writes (steps : List (String × Write)) :
    (∀ bag key t, ((after steps).bag bag).ReadsAs key (LastWrite steps bag key) t) ∧
    (∀ (t : PropertyType) p, (∃ v, t.Reads p v) ↔ t.Fits p) ∧
    (∀ bag, ((after steps).bag bag).keys.Pairwise (· < ·) ∧
      ((after steps).bag bag).size = ((after steps).bag bag).keys.length ∧
      ∀ key, key ∈ ((after steps).bag bag).keys ↔ ∃ p, LastWrite steps bag key p) ∧
    (∀ bag key p t v, ∃ previous, (∀ q, previous = some q ↔ LastWrite steps bag key q) ∧
      ((after steps).write bag (.insert key p)).2 = .previous previous ∧
      ((after steps).write bag (.insertAs key t v)).2 = .previous previous) ∧
    (∀ name source t key newKey, Copies steps name source t key newKey
      ((after steps).write name (.copyAs source t key newKey))) ∧
    ∀ bag (entries entries' : List (String × Property)), entries.Perm entries' →
      (entries.map Prod.fst).Nodup → ∀ name,
        (after (steps ++ inserts bag entries)).bag name =
          (after (steps ++ inserts bag entries')).bag name ∧
        (after (steps ++ [(bag, .ofList entries)])).bag name =
          (after (steps ++ [(bag, .ofList entries')])).bag name := by
  refine ⟨fun bag key t => Bag.readsAs (fun p => find?_after_iff) t,
    fun _ _ => PropertyType.exists_reads_iff, fun bag => ?_, fun bag key p t v => ?_, copies steps,
    fun bag entries entries' hPerm hKeys name => ?_⟩
  · refine ⟨Bag.pairwise_keys _, (List.length_map _).symm, fun key => ?_⟩
    simp only [Bag.mem_keys_iff, find?_after_iff]
  · exact ⟨((after steps).bag bag).find? key, fun q => find?_after_iff, rfl, rfl⟩
  · have hInserted : ∀ b : Bag, _ := fun b => Bag.foldl_insert_perm b hPerm hKeys
    refine ⟨?_, ?_⟩
    · rw [bag_after_inserts, bag_after_inserts, hInserted]
    · rw [after_concat, after_concat, write, write, Bag.ofList, Bag.ofList, hInserted]

/-- A number of 32 bits that is copied as one of 16 bits, in vain, and as one of 64 bits; then its
bag is begun anew. -/
def copiedNumber : List (String × Write) :=
  [("raw", .insertAs "pci" .uint32 70000), ("kept", .copyAs "raw" .uint16 "pci" "pci"),
    ("kept", .copyAs "raw" .int64 "pci" "wide"),
    ("raw", .ofList [("pci", .bool true), ("sim", .path "SIM/0"), ("pci", .int 7)])]

theorem bags_hold_last_writes_copied :
    LastWrite copiedNumber "kept" "wide" (.int 70000) ∧
    ((after copiedNumber).bag "kept").get .uint32 "wide" = .ok 70000 ∧
    ((after copiedNumber).bag "kept").get .uint16 "wide" =
      .error (.typeMismatch "wide" .uint16 .int) ∧
    ((after copiedNumber).bag "kept").get .uint16 "pci" = .error (.keyNotFound "pci") ∧
    ((after copiedNumber).bag "raw").get .path "sim" = .error (.typeMismatch "sim" .path .path) ∧
    (after (copiedNumber ++ inserts "raw" [("sim", .string ""), ("ci", .bool false)])).bag "raw" =
      (after (copiedNumber ++ inserts "raw" [("ci", .bool false), ("sim", .string "")])).bag "raw"
    := by
  obtain ⟨hReads, -, -, -, -, hOrder⟩ := bags_hold_last_writes copiedNumber
  have hWide : LastWrite copiedNumber "kept" "wide" (.int 70000) := find?_after_iff.mp rfl
  have hSim : LastWrite copiedNumber "raw" "sim" (.path "SIM/0") := find?_after_iff.mp rfl
  have hNoPci : ∀ p, ¬ LastWrite copiedNumber "kept" "pci" p := fun p hp =>
    nomatch find?_after_iff.mpr hp
  refine ⟨hWide, ?_, ?_, ?_, ?_, ?_⟩
  · exact ((hReads "kept" "wide" .uint32).value 70000).mpr ⟨_, hWide, .integer rfl⟩
  · refine ((hReads "kept" "wide" .uint16).error _).mpr (.inr ⟨_, hWide, fun hFits => ?_, rfl⟩)
    exact absurd (hFits.room 70000 rfl).2 (by decide)
  · exact (hReads "kept" "pci" .uint16).absent.mpr hNoPci
  · refine ((hReads "raw" "sim" .path).error _).mpr (.inr ⟨_, hSim, fun hFits => ?_, rfl⟩)
    exact absurd (hFits.path "SIM/0" rfl) (by decide)
  · exact (hOrder "raw" _ _ (.swap _ _ []) (by decide) "raw").1

end Shelf

end ModemLink
