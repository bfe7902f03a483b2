import Mathlib.Data.List.Forall2
import ModemLink.Manager.Start
import ModemLink.Proofs.Program.Ends
import ModemLink.Proofs.Registry.Exchange

/-!
# Changes and what they do to a registry

A change of an object is an announcement or a removal. One that is about a modem does one thing to
the registry of modems, and any other does nothing.

* `Enacts`, `Follows`: an event that does what a change says, and a history that does what a list of
  changes says.
* `Follows.knows_applyAll`: whether a modem is known is decided by its changes.
* `exists_enacting`: changes that were done in another order can be put in order.
-/

namespace ModemLink

open Registry (Event)

/-! ## Changes and events -/

namespace Announcement

/-- An identity that the announced modem can be found to have. -/
def CanBe (a : Announcement) (identity : String) : Prop := a.identify.Possible (.ok identity)

/-- The identity that the announcement carries is the only one. -/
theorem CanBe.eq_of_identity? {a : Announcement} {identity told : String} (h : a.CanBe identity)
    (hTold : a.identity? = some told) : identity = told := by
  rw [CanBe, identify, hTold] at h
  exact Except.ok.inj h

/-- An end of the identification of an announced modem. -/
def Found (a : Announcement) (x : Except Error String) : Prop :=
  ∃ identity, x = .ok identity ∧ a.CanBe identity

/-- The identification never fails, and asks the modem once at most. -/
theorem ends_identify (a : Announcement) : Program.Ends a.Found a.identify 1 := by
  have hOk : Program.Ends (fun x => ∃ identity, x = .ok identity) a.identify 1 := by
    unfold identify
    split
    · exact ⟨_, rfl⟩
    · have hImei := Program.ends_attempt
        (Program.ends_property a.path Bus.Interface.modem3gpp "Imei" .string)
      refine Program.ends_bind (m := 0) hImei ?_ ?_
      · rintro e ⟨y, hy, -⟩
        cases hy
      · rintro x -
        cases x <;> exact ⟨_, rfl⟩
  refine hOk.possible.mono ?_ (Nat.le_refl 1)
  rintro x ⟨⟨identity, rfl⟩, hPossible⟩
  exact ⟨identity, rfl, hPossible⟩

end Announcement

namespace ObjectChange

def isAdded : ObjectChange → Bool
  | added _ => true
  | removed _ => false

/-- The path of the modem that comes or goes by a change, if one does. -/
def modem? : ObjectChange → Option String
  | added a => if a.isModem then some a.path else none
  | removed r => if r.removesModem then some r.path else none

/-- Whether the modem at a path comes or goes by a change. -/
def isAt (path : String) (c : ObjectChange) : Bool := c.modem? == some path

/-- Whether a path is that of a modem after a change, given whether it was before. -/
def knowsAfter (path : String) (known : Bool) (c : ObjectChange) : Bool :=
  if c.isAt path then c.isAdded else known

/-- An event does to the registry what a change of a modem says. -/
def Enacts : ObjectChange → Event Nat → Prop
  | added a, .added object identity =>
    a.isModem = true ∧ object.path = a.path ∧ a.CanBe identity
  | removed r, .removed path => r.removesModem = true ∧ path = r.path
  | _, _ => False

namespace Enacts

variable {c : ObjectChange} {e : Event Nat}

theorem modem?_eq (h : Enacts c e) : c.modem? = e.path? := by
  cases c <;> cases e <;> first | exact h.elim | simp [modem?, Event.path?, h.1, h.2]

theorem isAdded_eq (h : Enacts c e) : c.isAdded = e.isAdded := by
  cases c <;> cases e <;> first | rfl | exact h.elim

theorem isAt_eq (h : Enacts c e) (path : String) : c.isAt path = e.isAt path := by
  rw [isAt, Event.isAt, h.modem?_eq]

theorem isChange (h : Enacts c e) : e.isChange = true := by
  cases c <;> cases e <;> first | rfl | exact h.elim

theorem isSome_modem? (h : Enacts c e) : c.modem?.isSome = true := by
  cases c <;> cases e <;> first | exact h.elim | simp [modem?, h.1]

theorem knowsAfter_eq (h : Enacts c e) (path : String) (known : Bool) :
    c.knowsAfter path known = e.knowsAfter path known := by
  rw [knowsAfter, h.isAt_eq, h.isAdded_eq]
  cases e with
  | added object identity =>
    by_cases hp : object.path = path <;> simp [Event.isAt, Event.path?, Event.knowsAfter,
      Event.isAdded, hp]
  | removed gone =>
    by_cases hp : gone = path <;> simp [Event.isAt, Event.path?, Event.knowsAfter,
      Event.isAdded, hp]
  | _ => cases h.isChange

theorem isChange_of_mem {changes : List ObjectChange} {events : List (Event Nat)}
    (h : List.Forall₂ Enacts changes events) : ∀ e ∈ events, e.isChange = true := by
  induction h with
  | nil => exact fun e he => absurd he List.not_mem_nil
  | cons hFirst _ ih => exact List.forall_mem_cons.mpr ⟨hFirst.isChange, ih⟩

/-- A choice that can be made by changes as well as by events picks such as belong together. -/
theorem filter {changes : List ObjectChange} {events : List (Event Nat)}
    (h : List.Forall₂ Enacts changes events) {picks : ObjectChange → Bool}
    {picksEvent : Event Nat → Bool} (hSame : ∀ c e, Enacts c e → picks c = picksEvent e) :
    List.Forall₂ Enacts (changes.filter picks) (events.filter picksEvent) :=
  List.rel_filter (fun c e hEnacts => by simp only [hSame c e hEnacts]) h

end Enacts

end ObjectChange

open ObjectChange (Enacts)

/-- The changes of objects in a history are those of modems in a list of changes, in turn. -/
def Follows (changes : List ObjectChange) (history : List (Event Nat)) : Prop :=
  List.Forall₂ Enacts (changes.filter (·.modem?.isSome)) (history.filter (·.isChange))

namespace Follows

variable {changes : List ObjectChange} {history : List (Event Nat)}

theorem nil : Follows [] [] := List.Forall₂.nil

theorem concat {c : ObjectChange} {e : Event Nat} (h : Follows changes history)
    (hEnacts : Enacts c e) : Follows (changes ++ [c]) (history ++ [e]) := by
  simp only [Follows, List.filter_append, List.filter_cons, List.filter_nil,
    hEnacts.isSome_modem?, hEnacts.isChange, if_true]
  exact List.rel_append h (.cons hEnacts .nil)

theorem concat_of_modem?_eq_none {c : ObjectChange} (h : Follows changes history)
    (hModem : c.modem? = none) : Follows (changes ++ [c]) history := by
  simpa [Follows, hModem] using h

theorem concat_of_isChange_eq_false {e : Event Nat} (h : Follows changes history)
    (hCall : e.isChange = false) : Follows changes (history ++ [e]) := by
  simpa [Follows, hCall] using h

theorem filter_isAdded (h : Follows changes history) (kind : Bool) :
    Follows (changes.filter (·.isAdded == kind)) (history.filter (·.isAdded == kind)) := by
  unfold Follows
  rw [List.filter_comm (fun c : ObjectChange => c.modem?.isSome),
    List.filter_comm (fun e : Event Nat => e.isChange)]
  exact Enacts.filter h fun c e hEnacts => by rw [hEnacts.isAdded_eq]

theorem knows_applyAll (h : Follows changes history) (modems : Modems) (path : String) :
    (modems.applyAll history).knows path =
      changes.foldl (fun known c => c.knowsAfter path known) (modems.knows path) := by
  have hEvents : ∀ known, history.foldl (fun known e => e.knowsAfter path known) known =
      (history.filter (·.isChange)).foldl (fun known e => e.knowsAfter path known) known := by
    intro known
    rw [List.foldl_filter]
    congr 1
    funext known e
    cases e <;> rfl
  have hChanges : ∀ known, changes.foldl (fun known c => c.knowsAfter path known) known =
      (changes.filter (·.modem?.isSome)).foldl (fun known c => c.knowsAfter path known) known := by
    intro known
    rw [List.foldl_filter]
    congr 1
    funext known c
    cases hModem : c.modem? with
    | none => simp [ObjectChange.knowsAfter, ObjectChange.isAt, hModem]
    | some p => rfl
  rw [Registry.knows_applyAll, hEvents, hChanges]
  refine (List.rel_foldl (P := Eq) (fun known known' hKnown c e hEnacts => ?_) rfl h).symm
  rw [hKnown]
  exact hEnacts.knowsAfter_eq path known'

end Follows

/-- Only the changes of the modem at a path matter to whether it is known. -/
theorem ObjectChange.foldl_knowsAfter (changes : List ObjectChange) (path : String) (known : Bool) :
    changes.foldl (fun known c => c.knowsAfter path known) known =
      (changes.filter (·.isAt path)).foldl (fun known c => c.knowsAfter path known) known := by
  rw [List.foldl_filter]
  congr 1
  funext known c
  unfold knowsAfter
  cases c.isAt path <;> rfl

theorem exists_split {α β : Type} {R : α → β → Prop} {u v : List α} {x : α} {ys : List β}
    (h : List.Forall₂ R (u ++ x :: v) ys) :
    ∃ us y vs, ys = us ++ y :: vs ∧ List.Forall₂ R u us ∧ R x y ∧ List.Forall₂ R v vs := by
  induction u generalizing ys with
  | nil =>
    obtain ⟨y, vs, hxy, hv, rfl⟩ := List.forall₂_cons_left_iff.mp h
    exact ⟨[], y, vs, rfl, .nil, hxy, hv⟩
  | cons d u ih =>
    obtain ⟨y, rest, hdy, hRest, rfl⟩ := List.forall₂_cons_left_iff.mp h
    obtain ⟨us, z, vs, rfl, hu, hxz, hv⟩ := ih hRest
    exact ⟨y :: us, z, vs, rfl, .cons hdy hu, hxz, hv⟩

/-- If changes are done in another order that is the same for announcements and the same for each
modem, there are events that do them in the right order and that differ as little. -/
theorem exists_enacting {changes finished : List ObjectChange} {events : List (Event Nat)}
    (hEnacts : List.Forall₂ Enacts finished events)
    (hModem : ∀ c ∈ changes, c.modem?.isSome = true)
    (hAdded : finished.filter (·.isAdded) = changes.filter (·.isAdded))
    (hAt : ∀ path, finished.filter (·.isAt path) = changes.filter (·.isAt path)) :
    ∃ inOrder, List.Forall₂ Enacts changes inOrder ∧
      events.filter (·.isAdded) = inOrder.filter (·.isAdded) ∧
      ∀ path, events.filter (·.isAt path) = inOrder.filter (·.isAt path) := by
  induction changes generalizing finished events with
  | nil =>
    cases hEnacts with
    | nil => exact ⟨[], .nil, rfl, fun _ => rfl⟩
    | @cons c e finished events hFirst _ =>
      obtain ⟨path, hPath⟩ := Option.isSome_iff_exists.mp hFirst.isSome_modem?
      have hNone := hAt path
      simp [ObjectChange.isAt, hPath] at hNone
  | cons c changes ih =>
    obtain ⟨path, hPath⟩ := Option.isSome_iff_exists.mp (hModem c List.mem_cons_self)
    have hSelf : c.isAt path = true := by simp [ObjectChange.isAt, hPath]
    -- `c` stands in `finished`, with nothing of the same modem and no announcement before it
    have hFirst := hAt path
    rw [List.filter_cons_of_pos hSelf] at hFirst
    obtain ⟨u, v, rfl, hu, -, -⟩ := List.filter_eq_cons_iff.mp hFirst
    obtain ⟨eu, e, ev, rfl, hBefore, hEnacts, hAfter⟩ := exists_split hEnacts
    have hNoneAdded : c.isAdded = true → u.filter (·.isAdded) = [] := by
      intro hc
      rw [List.filter_append, List.filter_cons_of_pos hc] at hAdded
      cases hu' : u.filter (·.isAdded) with
      | nil => rfl
      | cons d rest =>
        rw [hu', List.filter_cons_of_pos hc] at hAdded
        have hMem : c ∈ u := by
          rw [← (List.cons.inj hAdded).1]
          exact (List.mem_filter.mp (hu' ▸ List.mem_cons_self)).1
        exact (hu c hMem hSelf).elim
    have hNoneAt : ∀ other, c.isAt other = true → u.filter (·.isAt other) = [] := by
      intro other hOther
      obtain rfl : path = other := by simpa [ObjectChange.isAt, hPath] using hOther
      exact List.filter_eq_nil_iff.mpr hu
    obtain ⟨inOrder, hInOrder, hSameAdded, hSameAt⟩ := ih (List.rel_append hBefore hAfter)
      (fun d hd => hModem d (List.mem_cons_of_mem c hd))
      ((Registry.filter_cons_eq_iff hNoneAdded v changes).mp hAdded.symm).symm
      fun other =>
        ((Registry.filter_cons_eq_iff (hNoneAt other) v changes).mp (hAt other).symm).symm
    refine ⟨e :: inOrder, .cons hEnacts hInOrder, ?_, fun other => ?_⟩
    · refine ((Registry.filter_cons_eq_iff (fun he => ?_) ev inOrder).mpr hSameAdded.symm).symm
      have hNone := Enacts.filter hBefore fun _ _ hx => hx.isAdded_eq
      rw [hNoneAdded (hEnacts.isAdded_eq.trans he)] at hNone
      exact List.forall₂_nil_left_iff.mp hNone
    · refine ((Registry.filter_cons_eq_iff (fun he => ?_) ev inOrder).mpr (hSameAt other).symm).symm
      have hNone := Enacts.filter hBefore fun _ _ hx => hx.isAt_eq other
      rw [hNoneAt other ((hEnacts.isAt_eq other).trans he)] at hNone
      exact List.forall₂_nil_left_iff.mp hNone

end ModemLink
