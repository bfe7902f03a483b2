/-!
# Sorted entries

Finite maps from texts as lists of entries in ascending order of their keys, by code point.

* `Ascending`: each key is below all later ones, so no key occurs twice.
* `put`, `find?`: writing and reading one entry; `find?_put_self`, `find?_put_of_ne`.
* `ext_find?`: ascending lists with the same entries under every key are equal.
-/

namespace ModemLink.Entries

variable {α : Type}

/-- The keys ascend, so no key occurs twice. -/
def Ascending (l : List (String × α)) : Prop := l.Pairwise fun a b => a.1 < b.1

/-- The list with `value` under `key`, in place of what was there. -/
def put (key : String) (value : α) : List (String × α) → List (String × α)
  | [] => [(key, value)]
  | e :: rest =>
    if key < e.1 then (key, value) :: e :: rest
    else if key = e.1 then (key, value) :: rest
    else e :: put key value rest

/-- What stands under a key. -/
def find? (key : String) : List (String × α) → Option α
  | [] => none
  | e :: rest => if e.1 = key then some e.2 else find? key rest

theorem mem_put {key : String} {value : α} {l : List (String × α)} {e : String × α}
    (h : e ∈ put key value l) : e = (key, value) ∨ e ∈ l := by
  induction l with
  | nil => simpa [put] using h
  | cons d rest ih =>
    unfold put at h
    split at h
    · rcases List.mem_cons.mp h with h | h
      · exact .inl h
      · exact .inr h
    · split at h
      · rcases List.mem_cons.mp h with h | h
        · exact .inl h
        · exact .inr (List.mem_cons_of_mem _ h)
      · rcases List.mem_cons.mp h with h | h
        · exact .inr (h ▸ List.mem_cons_self)
        · rcases ih h with h | h
          · exact .inl h
          · exact .inr (List.mem_cons_of_mem _ h)

theorem lt_of_not_lt_of_ne {a b : String} (h : ¬ a < b) (hne : a ≠ b) : b < a :=
  String.not_le.mp fun hle => hne (String.le_antisymm hle (String.not_lt.mp h))

theorem ascending_put {l : List (String × α)} (h : Ascending l) (key : String) (value : α) :
    Ascending (put key value l) := by
  induction l with
  | nil => exact List.pairwise_singleton _ _
  | cons e rest ih =>
    obtain ⟨he, hrest⟩ := List.pairwise_cons.mp h
    unfold put
    split
    · rename_i hlt
      refine List.pairwise_cons.mpr ⟨fun d hd => ?_, h⟩
      rcases List.mem_cons.mp hd with rfl | hd
      · exact hlt
      · exact String.lt_trans hlt (he d hd)
    · rename_i hnlt
      split
      · rename_i heq
        exact List.pairwise_cons.mpr ⟨fun d hd => heq ▸ he d hd, hrest⟩
      · rename_i hne
        refine List.pairwise_cons.mpr ⟨fun d hd => ?_, ih hrest⟩
        rcases mem_put hd with rfl | hd
        · exact lt_of_not_lt_of_ne hnlt hne
        · exact he d hd

@[simp] theorem find?_put_self (key : String) (value : α) (l : List (String × α)) :
    find? key (put key value l) = some value := by
  induction l with
  | nil => simp [put, find?]
  | cons e rest ih =>
    unfold put
    split
    · simp [find?]
    · split
      · simp [find?]
      · rename_i hne
        simp [find?, Ne.symm hne, ih]

theorem find?_put_of_ne {key other : String} (h : other ≠ key) (value : α)
    (l : List (String × α)) : find? other (put key value l) = find? other l := by
  induction l with
  | nil => simp [put, find?, Ne.symm h]
  | cons e rest ih =>
    unfold put
    split
    · simp [find?, Ne.symm h]
    · split
      · rename_i heq
        simp [find?, Ne.symm h, ← heq]
      · simp [find?, ih]

theorem find?_eq_none_of_lt {key : String} {l : List (String × α)}
    (h : ∀ e ∈ l, key < e.1) : find? key l = none := by
  induction l with
  | nil => rfl
  | cons e rest ih =>
    have hne : e.1 ≠ key := fun he => String.lt_irrefl key (he ▸ h e List.mem_cons_self)
    simp [find?, hne, ih fun d hd => h d (List.mem_cons_of_mem _ hd)]

/-- Ascending lists that agree under every key are equal. -/
theorem ext_find? {l m : List (String × α)} (hl : Ascending l) (hm : Ascending m)
    (h : ∀ key, find? key l = find? key m) : l = m := by
  induction l generalizing m with
  | nil =>
    cases m with
    | nil => rfl
    | cons e rest => simpa [find?] using h e.1
  | cons d rest ih =>
    cases m with
    | nil => simpa [find?] using h d.1
    | cons e more =>
      obtain ⟨hd, hrest⟩ := List.pairwise_cons.mp hl
      obtain ⟨he, hmore⟩ := List.pairwise_cons.mp hm
      have hkey : d.1 = e.1 := by
        refine Decidable.byContradiction fun hne => ?_
        by_cases hlt : d.1 < e.1
        · have hnone : find? d.1 (e :: more) = none :=
            find?_eq_none_of_lt fun c hc => by
              rcases List.mem_cons.mp hc with rfl | hc
              · exact hlt
              · exact String.lt_trans hlt (he c hc)
          have := h d.1
          rw [hnone] at this
          simp [find?] at this
        · have hgt := lt_of_not_lt_of_ne hlt hne
          have hnone : find? e.1 (d :: rest) = none :=
            find?_eq_none_of_lt fun c hc => by
              rcases List.mem_cons.mp hc with rfl | hc
              · exact hgt
              · exact String.lt_trans hgt (hd c hc)
          have := h e.1
          rw [hnone] at this
          simp [find?] at this
      have hval : d.2 = e.2 := by
        have := h d.1
        simpa [find?, hkey] using this
      have htail : rest = more := ih hrest hmore fun key => by
        by_cases hk : key = d.1
        · rw [hk, find?_eq_none_of_lt hd, hkey, find?_eq_none_of_lt he]
        · have := h key
          simpa [find?, Ne.symm hk, hkey ▸ Ne.symm hk] using this
      rw [htail]
      exact congrArg (· :: more) (Prod.ext hkey hval)

end ModemLink.Entries
