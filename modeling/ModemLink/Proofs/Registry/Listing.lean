import Mathlib.Data.List.Induction
import ModemLink.Proofs.Registry.Events

/-!
# What a registry lists

A registry is a map from paths to objects that keeps its order. What it holds is read off the
history of the registry, without looking at the registry: a path has an object if one was announced
there and not removed since; the object is the one whose announcement came first, its place in the
list is that of this announcement, and its identity is the last one announced that is not empty.

* `Since`: something happened, and something else holds of all that happened later.
* `Present`, `Founds`, `Tells`: the reading of a history.
* `mem_list_iff`, `pairwise_list`: what is listed, and in which order.
* `registry_is_ordered_map`: the registry after any history holds what the history says.
-/

namespace ModemLink.Registry

variable {H : Type}

/-! ## Reading a history -/

/-- There was an event with `P`, given all events before it, and every later event has `Q`. -/
def Since (P : List (Event H) → Event H → Prop) (Q : Event H → Prop) (events : List (Event H)) :
    Prop :=
  ∃ before e after, events = before ++ e :: after ∧ P before e ∧ ∀ later ∈ after, Q later

theorem concat_eq_split_iff {α : Type} {l before after : List α} {last x : α} :
    l ++ [last] = before ++ x :: after ↔
      (before = l ∧ x = last ∧ after = []) ∨
        ∃ rest, after = rest ++ [last] ∧ l = before ++ x :: rest := by
  rcases List.eq_nil_or_concat after with rfl | ⟨rest, y, rfl⟩
  · constructor
    · intro h
      obtain ⟨hFirst, hLast⟩ := List.append_inj' h rfl
      exact .inl ⟨hFirst.symm, (List.cons.inj hLast).1.symm, rfl⟩
    · rintro (⟨rfl, rfl, -⟩ | ⟨rest, hNil, -⟩)
      · rfl
      · simp at hNil
  · constructor
    · intro h
      rw [List.concat_eq_append, ← List.cons_append, ← List.append_assoc] at h
      obtain ⟨hFirst, hLast⟩ := List.append_inj' h rfl
      exact .inr ⟨rest, by rw [List.concat_eq_append, (List.cons.inj hLast).1], hFirst⟩
    · rintro (⟨-, -, hNil⟩ | ⟨rest', hRest, rfl⟩)
      · simp at hNil
      · rw [hRest, List.append_assoc, List.cons_append]

theorem since_concat {P : List (Event H) → Event H → Prop} {Q : Event H → Prop}
    (events : List (Event H)) (e : Event H) :
    Since P Q (events ++ [e]) ↔ (Since P Q events ∧ Q e) ∨ P events e := by
  constructor
  · rintro ⟨before, x, after, hSplit, hP, hQ⟩
    rcases concat_eq_split_iff.mp hSplit with ⟨rfl, rfl, -⟩ | ⟨rest, rfl, rfl⟩
    · exact .inr hP
    · obtain ⟨hRest, hLast⟩ := List.forall_mem_append.mp hQ
      exact .inl ⟨⟨before, x, rest, rfl, hP, hRest⟩, hLast e List.mem_cons_self⟩
  · rintro (⟨⟨before, x, after, rfl, hP, hQ⟩, hLast⟩ | hP)
    · refine ⟨before, x, after ++ [e], by simp, hP, ?_⟩
      exact List.forall_mem_append.mpr ⟨hQ, by simpa using hLast⟩
    · exact ⟨events, e, [], rfl, hP, by simp⟩

theorem not_since_nil {P : List (Event H) → Event H → Prop} {Q : Event H → Prop} :
    ¬ Since P Q [] := by
  rintro ⟨before, x, after, hSplit, -, -⟩
  simp at hSplit

/-- An object was announced at a path, and the path was not removed since. -/
def Present (events : List (Event H)) (path : String) : Prop :=
  Since (fun _ e => ∃ object identity, e = .added object identity ∧ object.path = path)
    (· ≠ .removed path) events

/-- The event at a place announces an object at a path that was not present, and the path was not
removed since. -/
def Founds (events : List (Event H)) (place : Nat) (object : Tracked H) : Prop :=
  Since (fun before e => before.length = place ∧ (∃ identity, e = .added object identity) ∧
    ¬ Present before object.path) (· ≠ .removed object.path) events

/-- An announcement at a path told an identity, and since then the path was not removed and no
announcement there told another one. -/
def Tells (events : List (Event H)) (path identity : String) : Prop :=
  Since (fun _ e => identity ≠ "" ∧ ∃ object, e = .added object identity ∧ object.path = path)
    (fun e => e ≠ .removed path ∧
      ∀ object other, e = .added object other → object.path = path → other = "") events

theorem Founds.lt {events : List (Event H)} {place : Nat} {object : Tracked H}
    (h : Founds events place object) : place < events.length := by
  obtain ⟨before, e, after, rfl, ⟨rfl, -, -⟩, -⟩ := h
  simp

theorem Founds.not_removed {events : List (Event H)} {place : Nat} {object : Tracked H}
    (h : Founds events place object) {e : Event H} (hKept : e ≠ .removed object.path) :
    Founds (events ++ [e]) place object :=
  (since_concat events e).mpr (.inl ⟨h, hKept⟩)

/-! ## One event -/

theorem identityOf?_add (r : Registry H) (object : Tracked H) (identity path : String) :
    (r.add object identity).1.identityOf? path =
      if object.path = path ∧ identity ≠ "" then some identity else r.identityOf? path := by
  cases hk : r.knows object.path with
  | true =>
    have hSame : (fun e : Entry H => e.object.path == path) ∘ (fun e =>
        if e.object.path = object.path then e.refresh identity else e) =
        fun e => e.object.path == path := by
      funext e
      simp only [Function.comp_apply]
      split <;> simp
    rw [add_of_knows hk, identityOf?, identityOf?, List.find?_map, hSame]
    cases hFind : r.known.find? fun e => e.object.path == path with
    | none =>
      have hAbsent : object.path ≠ path := by
        rintro rfl
        obtain ⟨e, he, hPath⟩ := List.any_eq_true.mp hk
        exact List.find?_eq_none.mp hFind e he hPath
      simp [hAbsent]
    | some e =>
      have hPath : e.object.path = path := by simpa using List.find?_some hFind
      by_cases hAt : object.path = path
      · by_cases hEmpty : identity = ""
        · simp [hAt, hEmpty, Entry.refresh]
        · simp [hAt, hPath, hEmpty, Entry.refresh]
      · simp [hAt, hPath, Ne.symm hAt]
  | false =>
    rw [add_of_not_knows hk, identityOf?, identityOf?, known_offer, List.find?_append]
    by_cases hAt : object.path = path
    · subst hAt
      have hNone : r.known.find? (fun e => e.object.path == object.path) = none :=
        List.find?_eq_none.mpr fun e he hPath =>
          Bool.eq_false_iff.mp hk (List.any_eq_true.mpr ⟨e, he, hPath⟩)
      by_cases hEmpty : identity = "" <;> simp [hNone, hEmpty]
    · simp [hAt]

theorem identityOf?_remove (r : Registry H) (gone path : String) :
    (r.remove gone).1.identityOf? path = if gone = path then none else r.identityOf? path := by
  rw [remove, identityOf?, identityOf?, List.find?_filter]
  by_cases hAt : gone = path
  · subst hAt
    have hNone : r.known.find? (fun e =>
        decide ((e.object.path != gone) = true ∧ (e.object.path == gone) = true)) = none :=
      List.find?_eq_none.mpr fun e _ h => by simp at h
    rw [hNone, if_pos rfl]
    rfl
  · have hSame : (fun e : Entry H =>
        decide ((e.object.path != gone) = true ∧ (e.object.path == path) = true)) =
        fun e => e.object.path == path := by
      funext e
      by_cases h : e.object.path = path
      · simp [h, Ne.symm hAt]
      · simp [h]
    rw [hSame, if_neg hAt]

theorem identityOf?_apply (r : Registry H) (e : Event H) (path : String) :
    (r.apply e).identityOf? path =
      match e with
      | .added object identity =>
        if object.path = path ∧ identity ≠ "" then some identity else r.identityOf? path
      | .removed gone => if gone = path then none else r.identityOf? path
      | _ => r.identityOf? path := by
  cases e with
  | added object identity => exact identityOf?_add r object identity path
  | removed gone => exact identityOf?_remove r gone path
  | requested filter => simp only [apply, identityOf?, known_await]
  | polled id => rfl
  | dropped id => rfl

/-! ## Whole histories -/

theorem present_concat (events : List (Event H)) (e : Event H) (path : String) :
    Present (events ++ [e]) path ↔ (Present events path ∧ e ≠ .removed path) ∨
      ∃ object identity, e = .added object identity ∧ object.path = path :=
  since_concat events e

theorem knows_iff_present (events : List (Event H)) (path : String) :
    ((empty : Registry H).applyAll events).knows path = true ↔ Present events path := by
  induction events using List.reverseRecOn with
  | nil => exact iff_of_false Bool.false_ne_true not_since_nil
  | append_singleton events e ih =>
    rw [applyAll_concat, knows_apply, present_concat, ← ih]
    cases e with
    | added object identity => simp [Event.knowsAfter]
    | removed gone => simp [Event.knowsAfter]
    | requested filter => simp [Event.knowsAfter]
    | polled id => simp [Event.knowsAfter]
    | dropped id => simp [Event.knowsAfter]

theorem founds_concat (events : List (Event H)) (e : Event H) (place : Nat) (object : Tracked H) :
    Founds (events ++ [e]) place object ↔
      (Founds events place object ∧ e ≠ .removed object.path) ∨
        events.length = place ∧ (∃ identity, e = .added object identity) ∧
          ¬ Present events object.path :=
  since_concat events e

theorem mem_list_iff (events : List (Event H)) (object : Tracked H) :
    object ∈ ((empty : Registry H).applyAll events).list ↔ ∃ place, Founds events place object := by
  induction events using List.reverseRecOn with
  | nil => exact iff_of_false List.not_mem_nil fun ⟨_, h⟩ => not_since_nil h
  | append_singleton events e ih =>
    have hKnows := knows_iff_present events object.path
    simp only [applyAll_concat, founds_concat, exists_or, exists_and_right, exists_eq', true_and,
      ← ih, ← hKnows]
    generalize (empty : Registry H).applyAll events = r
    cases e with
    | added new identity =>
      cases hk : r.knows new.path with
      | true =>
        rw [apply, list_add_of_knows hk]
        constructor
        · exact fun h => .inl ⟨h, by simp⟩
        · rintro (⟨h, -⟩ | ⟨⟨_, hEq⟩, hNew⟩)
          · exact h
          · obtain ⟨rfl, -⟩ := Event.added.inj hEq
            exact absurd hk hNew
      | false =>
        rw [apply, list_add_of_not_knows hk, List.mem_append, List.mem_singleton]
        refine or_congr (by simp) ⟨?_, ?_⟩
        · rintro rfl
          exact ⟨⟨identity, rfl⟩, by simp [hk]⟩
        · rintro ⟨⟨_, hEq⟩, -⟩
          exact (Event.added.inj hEq).1.symm
    | removed gone =>
      rw [apply, list_remove, List.mem_filter, bne_iff_ne, ne_comm]
      simp
    | requested filter => simp [apply, list]
    | polled id => simp [apply]
    | dropped id => simp [apply, abandon, list]

/-- The objects are listed in the order in which they were founded. -/
theorem pairwise_list (events : List (Event H)) :
    ((empty : Registry H).applyAll events).list.Pairwise fun a b =>
      ∃ i j, Founds events i a ∧ Founds events j b ∧ i < j := by
  induction events using List.reverseRecOn with
  | nil => exact .nil
  | append_singleton events e ih =>
    have hKept : ∀ l : List (Tracked H), l.Sublist ((empty : Registry H).applyAll events).list →
        (∀ o ∈ l, e ≠ .removed o.path) →
        l.Pairwise fun a b =>
          ∃ i j, Founds (events ++ [e]) i a ∧ Founds (events ++ [e]) j b ∧ i < j := by
      intro l hPart hStays
      refine (ih.sublist hPart).imp_of_mem ?_
      rintro a b ha hb ⟨i, j, hi, hj, hLt⟩
      exact ⟨i, j, hi.not_removed (hStays a ha), hj.not_removed (hStays b hb), hLt⟩
    have hListed := mem_list_iff events
    have hKnows := knows_iff_present events
    rw [applyAll_concat]
    generalize (empty : Registry H).applyAll events = r at hKept hListed hKnows
    cases e with
    | added new identity =>
      have hOld := hKept r.list (List.Sublist.refl _) fun o _ => by simp
      cases hk : r.knows new.path with
      | true => rwa [apply, list_add_of_knows hk]
      | false =>
        rw [apply, list_add_of_not_knows hk]
        refine List.pairwise_append.mpr ⟨hOld, List.pairwise_singleton _ _, ?_⟩
        rintro a ha b hb
        obtain rfl : b = new := List.mem_singleton.mp hb
        obtain ⟨i, hi⟩ := (hListed a).mp ha
        refine ⟨i, events.length, hi.not_removed (by simp), ?_, hi.lt⟩
        refine (founds_concat events _ _ b).mpr (.inr ⟨rfl, ⟨identity, rfl⟩, ?_⟩)
        rw [← hKnows, hk]
        exact Bool.false_ne_true
    | removed gone =>
      rw [apply, list_remove]
      refine hKept _ List.filter_sublist fun o ho hEq => ?_
      obtain rfl := Event.removed.inj hEq
      simp at ho
    | requested filter =>
      have hSame : (r.apply (.requested filter)).list = r.list := by simp [apply, list]
      exact hSame ▸ hKept r.list (List.Sublist.refl _) fun o _ => by simp
    | polled id => exact hKept r.list (List.Sublist.refl _) fun o _ => by simp
    | dropped id => exact hKept r.list (List.Sublist.refl _) fun o _ => by simp

theorem tells_concat (events : List (Event H)) (e : Event H) (path identity : String) :
    Tells (events ++ [e]) path identity ↔
      (Tells events path identity ∧ e ≠ .removed path ∧
        ∀ object other, e = .added object other → object.path = path → other = "") ∨
      identity ≠ "" ∧ ∃ object, e = .added object identity ∧ object.path = path :=
  since_concat events e

theorem identityOf?_eq_some_iff (events : List (Event H)) (path identity : String) :
    ((empty : Registry H).applyAll events).identityOf? path = some identity ↔
      Tells events path identity := by
  induction events using List.reverseRecOn with
  | nil => exact iff_of_false (by simp [identityOf?, empty]) not_since_nil
  | append_singleton events e ih =>
    rw [applyAll_concat, identityOf?_apply, tells_concat, ← ih]
    generalize (empty : Registry H).applyAll events = r
    cases e with
    | added object told =>
      by_cases hAt : object.path = path
      · by_cases hTold : told = ""
        · simp [hAt, hTold]
        · have hProper : told = identity → identity ≠ "" := fun h => h ▸ hTold
          simpa [hAt, hTold] using hProper
      · simp [hAt]
    | removed gone => by_cases hAt : gone = path <;> simp [hAt]
    | requested filter => simp
    | polled id => simp
    | dropped id => simp

/-- **A registry is a map from paths to objects that keeps its order.** After any history no path is
listed twice. The objects are exactly those that were announced where none was and have not been
removed since, with the handles of these announcements and in their order; the first object is the
head of this list. The identity at a path is the last one announced there that is not empty, if the
path was not removed since.

An announcement says whether the path was unknown, and a removal whether it was known. Making,
polling and dropping a request leaves all this alone, and a removal leaves the requests alone.
However a registry is used, looked at in between or not, it has such a history. -/
theorem registry_is_ordered_map (events : List (Event H)) :
    let r := (empty : Registry H).applyAll events
    (r.list.map Tracked.path).Nodup ∧
    (∀ object, object ∈ r.list ↔ ∃ place, Founds events place object) ∧
    (r.list.Pairwise fun a b => ∃ i j, Founds events i a ∧ Founds events j b ∧ i < j) ∧
    r.first? = r.list.head? ∧
    (∀ path identity, r.identityOf? path = some identity ↔ Tells events path identity) ∧
    (∀ object identity, (r.add object identity).2 = true ↔ ¬ Present events object.path) ∧
    (∀ path, (r.remove path).2 = true ↔ Present events path) ∧
    (∀ filter, (r.apply (.requested filter)).known = r.known) ∧
    (∀ id, (r.apply (.polled id)).known = r.known) ∧
    (∀ id, (r.apply (.dropped id)).known = r.known) ∧
    (∀ path, (r.remove path).1.pending = r.pending ∧ (r.remove path).1.futures = r.futures) ∧
    (∀ steps, ∃ history, (Named.after steps).registry = (empty : Registry Nat).applyAll history ∧
      (Named.after (steps ++ [.list])).registry = (Named.after steps).registry ∧
      (Named.after (steps ++ [.first])).registry = (Named.after steps).registry ∧
      ∀ path, (Named.after (steps ++ [.identityOf path])).registry =
        (Named.after steps).registry) := by
  intro r
  have hKnows := knows_iff_present (H := H) events
  refine ⟨?_, mem_list_iff events, pairwise_list events, ?_, identityOf?_eq_some_iff events, ?_,
    hKnows, known_await r, fun _ => rfl, fun _ => rfl, fun _ => ⟨rfl, rfl⟩, fun steps => ?_⟩
  · exact Distinct.applyAll (r := empty) List.nodup_nil events
  · exact List.head?_map.symm
  · intro object identity
    rw [← hKnows, add]
    split <;> simp [*, r]
  · obtain ⟨history, hHistory⟩ := Named.exists_events steps
    refine ⟨history, hHistory, ?_, ?_, fun path => ?_⟩ <;> rw [Named.after_concat] <;> rfl

end ModemLink.Registry
