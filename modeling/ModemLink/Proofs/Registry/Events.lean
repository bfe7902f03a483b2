import Mathlib.Data.List.Induction
import ModemLink.Registry.Named

/-!
# What happens to a registry

Everything that can happen to a registry, as data: objects are announced and removed, requests are
made, looked at and dropped. What the registry is after a list of events is a fold over the list, so
that a law about every state that can be reached is one about all lists.

* `apply`, `applyAll`: the registry after one event, and after a list of them.
* `knows_apply`: one event changes what is known at one path at most.
* `Distinct.apply`: no event makes a path known twice.
* `future_apply`: everything that one event can do to the future of a request.
* `Named.act_registry`: a use of a registry whose requests have names is a list of events.
-/

namespace ModemLink.Registry

variable {H : Type}

/-- Something that happens to a registry. -/
inductive Event (H : Type)
  /-- An object is announced, with its identity. -/
  | added (object : Tracked H) (identity : String)
  | removed (path : String)
  /-- A request is made. -/
  | requested (filter : ModemFilter)
  /-- Somebody looks whether a request has an outcome. -/
  | polled (id : RequestId)
  /-- Nobody waits for the outcome of a request any more. -/
  | dropped (id : RequestId)
deriving DecidableEq, Repr

def apply (r : Registry H) : Event H → Registry H
  | .added object identity => (r.add object identity).1
  | .removed path => (r.remove path).1
  | .requested filter => (r.await filter).1
  | .polled _ => r
  | .dropped id => r.abandon id

def applyAll (r : Registry H) (events : List (Event H)) : Registry H := events.foldl apply r

@[simp] theorem applyAll_nil (r : Registry H) : r.applyAll [] = r := rfl

@[simp] theorem applyAll_cons (r : Registry H) (e : Event H) (rest : List (Event H)) :
    r.applyAll (e :: rest) = (r.apply e).applyAll rest := rfl

theorem applyAll_append (r : Registry H) (first rest : List (Event H)) :
    r.applyAll (first ++ rest) = (r.applyAll first).applyAll rest := List.foldl_append

theorem applyAll_concat (r : Registry H) (events : List (Event H)) (e : Event H) :
    r.applyAll (events ++ [e]) = (r.applyAll events).apply e := by
  rw [applyAll_append, applyAll_cons, applyAll_nil]

/-! ## What is known -/

@[simp] theorem known_offer (r : Registry H) (object : Tracked H) (identity : String) :
    (r.offer object identity).known = r.known := by
  unfold offer
  split
  · rfl
  · split
    · split <;> rfl
    · rfl

@[simp] theorem known_cancelPending (r : Registry H) : r.cancelPending.known = r.known := by
  unfold cancelPending
  split
  · rfl
  · split <;> rfl

@[simp] theorem known_await (r : Registry H) (filter : ModemFilter) :
    (r.await filter).1.known = r.known := known_cancelPending r

theorem add_of_knows {r : Registry H} {object : Tracked H} (h : r.knows object.path = true)
    (identity : String) :
    (r.add object identity).1 =
      { r with
        known := r.known.map fun e =>
          if e.object.path = object.path then e.refresh identity else e } := by
  rw [add, if_pos h]

theorem add_of_not_knows {r : Registry H} {object : Tracked H}
    (h : r.knows object.path = false) (identity : String) :
    (r.add object identity).1 =
      ({ r with known := r.known ++ [⟨object, identity⟩] } : Registry H).offer object identity := by
  rw [add, if_neg (Bool.eq_false_iff.mp h)]

@[simp] theorem refresh_object (e : Entry H) (identity : String) :
    (e.refresh identity).object = e.object := by
  unfold Entry.refresh
  split <;> rfl

/-- An announcement makes its path known and changes nothing about any other path. -/
theorem knows_add (r : Registry H) (object : Tracked H) (identity path : String) :
    (r.add object identity).1.knows path = (r.knows path || object.path == path) := by
  cases h : r.knows object.path with
  | true =>
    have hMap : ∀ l : List (Entry H),
        ((l.map fun e => if e.object.path = object.path then e.refresh identity else e).any
          fun e => e.object.path == path) = l.any fun e => e.object.path == path := by
      intro l
      induction l with
      | nil => rfl
      | cons e rest ih =>
        rw [List.map_cons, List.any_cons, List.any_cons, ih]
        split <;> simp
    rw [add_of_knows h]
    unfold knows at h ⊢
    rw [hMap]
    by_cases hp : object.path = path
    · rw [← hp, h, Bool.true_or]
    · rw [beq_false_of_ne hp, Bool.or_false]
  | false =>
    rw [add_of_not_knows h]
    simp [knows]

/-- A removal makes its path unknown and changes nothing about any other path. -/
theorem knows_remove (r : Registry H) (gone path : String) :
    (r.remove gone).1.knows path = (r.knows path && gone != path) := by
  unfold knows remove
  rw [List.any_filter]
  by_cases h : gone = path
  · subst gone
    rw [bne_self_eq_false, Bool.and_false]
    simp
  · have hBeq : ∀ e : Entry H,
        (e.object.path != gone && e.object.path == path) = (e.object.path == path) := by
      intro e
      by_cases he : e.object.path = path
      · simp [he, Ne.symm h]
      · simp [he]
    simp only [hBeq, bne_iff_ne.mpr h, Bool.and_true]

/-- Whether a path is known after an event, given whether it was known before. -/
def Event.knowsAfter (path : String) (known : Bool) : Event H → Bool
  | .added object _ => known || object.path == path
  | .removed gone => known && gone != path
  | _ => known

theorem knows_apply (r : Registry H) (e : Event H) (path : String) :
    (r.apply e).knows path = e.knowsAfter path (r.knows path) := by
  cases e with
  | added object identity => exact knows_add r object identity path
  | removed gone => exact knows_remove r gone path
  | requested filter => simp only [apply, knows, known_await, Event.knowsAfter]
  | polled id => rfl
  | dropped id => rfl

theorem knows_applyAll (r : Registry H) (events : List (Event H)) (path : String) :
    (r.applyAll events).knows path =
      events.foldl (fun known e => e.knowsAfter path known) (r.knows path) := by
  induction events generalizing r with
  | nil => rfl
  | cons e rest ih => rw [applyAll_cons, ih, knows_apply, List.foldl_cons]

/-- What is known after an event depends on nothing but what was known before. -/
theorem known_apply_congr {r r' : Registry H} (h : r.known = r'.known) (e : Event H) :
    (r.apply e).known = (r'.apply e).known := by
  cases e with
  | added object identity =>
    have hKnows : r.knows object.path = r'.knows object.path := by rw [knows, knows, h]
    cases hk : r.knows object.path with
    | true => rw [apply, apply, add_of_knows hk, add_of_knows (hKnows.symm.trans hk), h]
    | false =>
      rw [apply, apply, add_of_not_knows hk, add_of_not_knows (hKnows.symm.trans hk),
        known_offer, known_offer, h]
  | removed path => simp only [apply, remove, h]
  | requested filter => simp only [apply, known_await, h]
  | polled id => exact h
  | dropped id => exact h

theorem known_applyAll_congr {r r' : Registry H} (h : r.known = r'.known)
    (events : List (Event H)) : (r.applyAll events).known = (r'.applyAll events).known := by
  induction events generalizing r r' with
  | nil => exact h
  | cons e rest ih => exact ih (known_apply_congr h e)

theorem list_add_of_knows {r : Registry H} {object : Tracked H} (h : r.knows object.path = true)
    (identity : String) : (r.add object identity).1.list = r.list := by
  rw [add_of_knows h, list, list, List.map_map]
  refine List.map_congr_left fun e _ => ?_
  simp only [Function.comp_apply]
  split <;> simp

theorem list_add_of_not_knows {r : Registry H} {object : Tracked H}
    (h : r.knows object.path = false) (identity : String) :
    (r.add object identity).1.list = r.list ++ [object] := by
  simp [add_of_not_knows h, list]

theorem list_remove (r : Registry H) (path : String) :
    (r.remove path).1.list = r.list.filter fun o => o.path != path := by
  simp only [remove, list, List.filter_map, Function.comp_def]

/-- No path is known twice. -/
def Distinct (r : Registry H) : Prop := (r.list.map Tracked.path).Nodup

theorem mem_paths_iff (r : Registry H) (path : String) :
    path ∈ r.list.map Tracked.path ↔ r.knows path = true := by
  rw [list, List.map_map, List.mem_map, knows, List.any_eq_true]
  simp only [Function.comp_apply, beq_iff_eq]

theorem Distinct.add {r : Registry H} (h : r.Distinct) (object : Tracked H) (identity : String) :
    (r.add object identity).1.Distinct := by
  cases hk : r.knows object.path with
  | true => rwa [Distinct, list_add_of_knows hk]
  | false =>
    have hNew : object.path ∉ r.list.map Tracked.path := by
      rw [mem_paths_iff, hk]
      exact Bool.false_ne_true
    rw [Distinct, list_add_of_not_knows hk, List.map_append]
    refine List.nodup_append.mpr ⟨h, by simp, ?_⟩
    rintro path hPath other hOther rfl
    exact hNew (List.mem_singleton.mp hOther ▸ hPath)

theorem Distinct.apply {r : Registry H} (h : r.Distinct) (e : Event H) : (r.apply e).Distinct := by
  cases e with
  | added object identity => exact h.add object identity
  | removed path =>
    have hPart : ((r.remove path).1.list.map Tracked.path).Sublist (r.list.map Tracked.path) :=
      (List.filter_sublist.map Entry.object).map Tracked.path
    exact hPart.nodup h
  | requested filter => simpa only [Distinct, list, Registry.apply, known_await] using h
  | polled id => exact h
  | dropped id => exact h

theorem Distinct.applyAll {r : Registry H} (h : r.Distinct) (events : List (Event H)) :
    (r.applyAll events).Distinct := by
  induction events generalizing r with
  | nil => exact h
  | cons e rest ih => exact ih (h.apply e)

/-! ## What becomes of requests -/

/-- Whether an event settles a request that waits with the given filter: another request is made,
or an object that is not known appears with an identity that the filter accepts. -/
def settles (r : Registry H) (filter : ModemFilter) : Event H → Bool
  | .added object identity => !r.knows object.path && filter.accepts identity
  | .requested _ => true
  | _ => false

/-- What a request becomes by an event that settles it. -/
def Event.verdict : Event H → Future H
  | .added object _ => .resolved object
  | _ => .cancelled

theorem verdict_ne_waiting (e : Event H) : e.verdict ≠ .waiting := by
  cases e <;> simp [Event.verdict]

/-- The request with a number is the pending one, has the given filter, and its outcome is waited
for. -/
structure Waits (r : Registry H) (id : RequestId) (filter : ModemFilter) : Prop where
  pending : r.pending = some (id, filter)
  future : r.futures[id]? = some .waiting

theorem Waits.lt {r : Registry H} {id : RequestId} {filter : ModemFilter}
    (h : r.Waits id filter) : id < r.futures.length :=
  (List.getElem?_eq_some_iff.mp h.future).1

theorem offer_of_waits {r : Registry H} {id : RequestId} {filter : ModemFilter}
    (h : r.Waits id filter) (object : Tracked H) (identity : String) :
    r.offer object identity =
      if filter.accepts identity then
        { r with pending := none, futures := r.futures.set id (.resolved object) }
      else r := by
  simp only [offer, h.pending, h.future]

theorem cancelPending_of_waits {r : Registry H} {id : RequestId} {filter : ModemFilter}
    (h : r.Waits id filter) :
    r.cancelPending = { r with pending := none, futures := r.futures.set id .cancelled } := by
  simp only [cancelPending, h.pending, h.future]

theorem futures_offer_get?_of_ne {r : Registry H} {id : RequestId} {object : Tracked H}
    {identity : String}
    (h : ∀ filter, r.Waits id filter → ¬ filter.accepts identity = true) :
    (r.offer object identity).futures[id]? = r.futures[id]? := by
  unfold offer
  split
  · rfl
  · rename_i other filter hp
    split
    · rename_i hf
      split
      · rename_i hAccepts
        refine List.getElem?_set_ne fun he => ?_
        subst other
        exact h filter ⟨hp, hf⟩ hAccepts
      · rfl
    · rfl

theorem futures_cancelPending_get?_of_ne {r : Registry H} {id : RequestId}
    (h : ∀ filter, ¬ r.Waits id filter) : r.cancelPending.futures[id]? = r.futures[id]? := by
  unfold cancelPending
  split
  · rfl
  · rename_i other filter hp
    split
    · rename_i hf
      refine List.getElem?_set_ne fun he => ?_
      subst other
      exact h filter ⟨hp, hf⟩
    · rfl

@[simp] theorem length_futures_cancelPending (r : Registry H) :
    r.cancelPending.futures.length = r.futures.length := by
  unfold cancelPending
  split
  · rfl
  · split
    · exact List.length_set
    · rfl

theorem await_snd (r : Registry H) (filter : ModemFilter) :
    (r.await filter).2 = r.futures.length := length_futures_cancelPending r

theorem pending_await (r : Registry H) (filter : ModemFilter) :
    (r.await filter).1.pending = some (r.futures.length, filter) := by
  rw [← length_futures_cancelPending r]
  rfl

theorem futures_await (r : Registry H) (filter : ModemFilter) :
    (r.await filter).1.futures = r.cancelPending.futures ++ [.waiting] := rfl

theorem waits_await (r : Registry H) (filter : ModemFilter) :
    (r.await filter).1.Waits r.futures.length filter where
  pending := pending_await r filter
  future := by
    rw [futures_await, ← length_futures_cancelPending r, List.getElem?_concat_length]

theorem Waits.apply {r : Registry H} {id : RequestId} {filter : ModemFilter} {e : Event H}
    (h : r.Waits id filter) (hQuiet : r.settles filter e = false) (hDrop : e ≠ .dropped id) :
    (r.apply e).Waits id filter := by
  cases e with
  | added object identity =>
    cases hk : r.knows object.path with
    | true =>
      rw [Registry.apply, add_of_knows hk]
      exact ⟨h.pending, h.future⟩
    | false =>
      have hAccepts : filter.accepts identity = false := by simpa [settles, hk] using hQuiet
      have hNew :
          ({ r with known := r.known ++ [⟨object, identity⟩] } : Registry H).Waits id filter :=
        ⟨h.pending, h.future⟩
      rw [Registry.apply, add_of_not_knows hk, offer_of_waits hNew, if_neg (by simp [hAccepts])]
      exact hNew
  | removed path => exact ⟨h.pending, h.future⟩
  | requested other => cases hQuiet
  | polled other => exact h
  | dropped other =>
    have hNe : other ≠ id := fun he => hDrop (he ▸ rfl)
    exact ⟨h.pending, (List.getElem?_set_ne hNe).trans h.future⟩

theorem Waits.future_apply {r : Registry H} {id : RequestId} {filter : ModemFilter}
    {e : Event H} (h : r.Waits id filter) (hSettles : r.settles filter e = true) :
    (r.apply e).futures[id]? = some e.verdict := by
  cases e with
  | added object identity =>
    obtain ⟨hk, hAccepts⟩ : r.knows object.path = false ∧ filter.accepts identity = true := by
      simpa [settles] using hSettles
    have hNew :
        ({ r with known := r.known ++ [⟨object, identity⟩] } : Registry H).Waits id filter :=
      ⟨h.pending, h.future⟩
    rw [Registry.apply, add_of_not_knows hk, offer_of_waits hNew, if_pos hAccepts]
    exact List.getElem?_set_self h.lt
  | requested other =>
    rw [Registry.apply, futures_await, cancelPending_of_waits h,
      List.getElem?_append_left (by simpa using h.lt)]
    exact List.getElem?_set_self h.lt
  | removed path => cases hSettles
  | polled other => cases hSettles
  | dropped other => cases hSettles

/-- Everything that one event can do to the future of a request: leave it alone, settle it, make
the request, or drop it. -/
theorem future_apply (r : Registry H) (e : Event H) (id : RequestId) :
    (r.apply e).futures[id]? = r.futures[id]? ∨
      (∃ filter, r.Waits id filter ∧ r.settles filter e = true ∧
        (r.apply e).futures[id]? = some e.verdict) ∨
      (∃ filter, e = .requested filter ∧ id = r.futures.length ∧
        (r.apply e).futures[id]? = some .waiting) ∨
      (e = .dropped id ∧ id < r.futures.length ∧
        (r.apply e).futures[id]? = some .abandoned) := by
  by_cases hw : ∃ filter, r.Waits id filter ∧ r.settles filter e = true
  · obtain ⟨filter, h, hSettles⟩ := hw
    exact .inr (.inl ⟨filter, h, hSettles, h.future_apply hSettles⟩)
  cases e with
  | added object identity =>
    refine .inl ?_
    cases hk : r.knows object.path with
    | true => rw [apply, add_of_knows hk]
    | false =>
      rw [apply, add_of_not_knows hk]
      refine (futures_offer_get?_of_ne fun filter h hAccepts => hw ⟨filter, ?_, ?_⟩)
      · exact ⟨h.pending, h.future⟩
      · simp [settles, hk, hAccepts]
  | removed path => exact .inl rfl
  | requested filter =>
    have hCancel : r.cancelPending.futures[id]? = r.futures[id]? :=
      futures_cancelPending_get?_of_ne fun filter h => hw ⟨filter, h, rfl⟩
    rcases Nat.lt_trichotomy id r.futures.length with hlt | heq | hgt
    · refine .inl ?_
      rw [apply, futures_await, List.getElem?_append_left (by simpa using hlt), hCancel]
    · subst heq
      exact .inr (.inr (.inl ⟨filter, rfl, rfl, (waits_await r filter).future⟩))
    · refine .inl ?_
      rw [apply, futures_await, List.getElem?_eq_none (by simpa using Nat.succ_le_of_lt hgt),
        List.getElem?_eq_none (Nat.le_of_lt hgt)]
  | polled other => exact .inl rfl
  | dropped other =>
    by_cases hNe : other = id
    · subst other
      by_cases hlt : id < r.futures.length
      · exact .inr (.inr (.inr ⟨rfl, hlt, List.getElem?_set_self hlt⟩))
      · refine .inl ?_
        simp only [apply, abandon, List.set_eq_of_length_le (Nat.le_of_not_lt hlt)]
    · exact .inl (List.getElem?_set_ne hNe)

theorem lt_length_futures_applyAll {r : Registry H} {id : RequestId} (events : List (Event H))
    (h : id < r.futures.length) : id < (r.applyAll events).futures.length := by
  induction events generalizing r with
  | nil => exact h
  | cons e rest ih =>
    refine ih ?_
    rcases future_apply r e id with hSame | ⟨_, -, -, hNew⟩ | ⟨_, -, rfl, -⟩ | ⟨-, -, hNew⟩
    · exact (List.getElem?_eq_some_iff.mp (hSame.trans (List.getElem?_eq_getElem h))).1
    · exact (List.getElem?_eq_some_iff.mp hNew).1
    · exact (Nat.lt_irrefl _ h).elim
    · exact (List.getElem?_eq_some_iff.mp hNew).1

theorem length_futures_apply (r : Registry H) (e : Event H) :
    r.futures.length ≤ (r.apply e).futures.length := by
  by_contra hLess
  have hLt : (r.apply e).futures.length < r.futures.length := Nat.lt_of_not_le hLess
  have hStays := lt_length_futures_applyAll [e] hLt
  exact Nat.lt_irrefl _ hStays

/-! ## Requests by name -/

/-- Whatever is done with a registry whose requests have names is a list of events. -/
theorem Named.act_registry (n : Named) (s : Step) :
    ∃ events, (n.act s).1.registry = n.registry.applyAll events := by
  have hForget : ∀ (m : Named) name,
      ∃ events, (m.forget name).registry = m.registry.applyAll events := by
    intro m name
    unfold Named.forget
    split
    · exact ⟨[], rfl⟩
    · rename_i id _
      exact ⟨[.dropped id], rfl⟩
  have hTake : ∀ (m : Named) name outcome,
      ∃ events, (m.take name outcome).1.registry = m.registry.applyAll events := by
    intro m name outcome
    unfold Named.take
    split
    · exact ⟨[], rfl⟩
    · split
      · exact ⟨[], rfl⟩
      · exact hForget m name
  cases s with
  | add path identity => exact ⟨[.added ⟨path, n.steps⟩ identity], rfl⟩
  | remove path => exact ⟨[.removed path], rfl⟩
  | await name filter =>
    obtain ⟨events, h⟩ := hForget { n with registry := (n.registry.await filter).1 } name
    exact ⟨.requested filter :: events, h⟩
  | poll name => exact hTake n name _
  | within name limited => exact hTake n name _
  | abandon name => exact hForget n name
  | list => exact ⟨[], rfl⟩
  | first => exact ⟨[], rfl⟩
  | identityOf path => exact ⟨[], rfl⟩
  | text => exact ⟨[], rfl⟩

namespace Named

/-- A registry whose requests have names, after uses of it. -/
def after (steps : List Step) : Named := steps.foldl (fun n s => (n.step s).1) .empty

theorem after_concat (steps : List Step) (s : Step) :
    after (steps ++ [s]) = ((after steps).step s).1 := by
  rw [after, List.foldl_append]
  rfl

theorem exists_events (steps : List Step) :
    ∃ events, (after steps).registry = (Registry.empty : Registry Nat).applyAll events := by
  induction steps using List.reverseRecOn with
  | nil => exact ⟨[], rfl⟩
  | append_singleton steps s ih =>
    obtain ⟨events, hEvents⟩ := ih
    obtain ⟨more, hMore⟩ := act_registry (after steps) s
    refine ⟨events ++ more, ?_⟩
    rw [applyAll_append, ← hEvents, ← hMore, after_concat]
    rfl

end Named

end ModemLink.Registry
