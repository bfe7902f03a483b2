import ModemLink.Proofs.Manager.Changes
import ModemLink.Proofs.Manager.Return

/-!
# Inquiries

An announced modem has the identity that its announcement carries. One whose announcement carries
none is asked for its IMEI, once, and what it replies is its identity. It has the empty one if the
reply is anything but a text, or if there is no manager any more, so that it cannot be asked.

* `Inquiry.identity`: the identity that an inquiry leads to.
* `Announcement.Settled`: the identity of one announced modem.
* `Announcement.Stage`: how far the identification of an announced modem can be.
* `identities`: the identities of announced modems, of which some had to be asked.
-/

namespace ModemLink

open Registry (Event)
open Reset (imeiQuery)

/-- A question with the reply to it. There is none if the question could not be asked. -/
structure Inquiry where
  question : Bus.Query
  reply? : Option Bus.Reply

/-- The IMEI that the modem has told, or the empty text. -/
def Inquiry.identity (x : Inquiry) : String :=
  match x.reply? with
  | some (.ok [.string imei]) => imei
  | _ => ""

namespace Announcement

variable {a : Announcement} {inquiries : List Inquiry} {identity : String}

/-- The identity of an announced modem, by the inquiries that are made about it. -/
inductive Settled (a : Announcement) : List Inquiry → String → Prop
  | carried {identity : String} (h : a.identity? = some identity) : Settled a [] identity
  | asked (reply? : Option Bus.Reply) (h : a.identity? = none) :
      Settled a [⟨imeiQuery a.path, reply?⟩] (Inquiry.identity ⟨imeiQuery a.path, reply?⟩)

/-- What remains of the identification of an announced modem, after the inquiries about it. -/
inductive Stage (a : Announcement) : Request String → List Inquiry → Prop
  | unasked (h : a.identity? = none) : Stage a a.identify []
  | asking (h : a.identity? = none) :
      Stage a (.ask (imeiQuery a.path) fun r =>
        .done (Inquiry.identity ⟨imeiQuery a.path, some r⟩)) []
  | settled {identity : String} {inquiries : List Inquiry} (h : a.Settled inquiries identity) :
      Stage a (.done identity) inquiries

theorem identify_of_identity?_eq_some (h : a.identity? = some identity) :
    a.identify = .done identity := by
  rw [identify, h]
  rfl

theorem identify_of_identity?_eq_none (h : a.identity? = none) :
    a.identify = .whetherLinked fun linked =>
      if linked then
        .ask (imeiQuery a.path) fun r => .done (Inquiry.identity ⟨imeiQuery a.path, some r⟩)
      else .done "" := by
  rw [identify, h]
  refine congrArg Program.whetherLinked (funext fun linked => ?_)
  cases linked with
  | false => rfl
  | true =>
    refine congrArg (Program.ask _) (funext fun r => ?_)
    -- a reply is a text, and nothing beside it, or anything else
    rcases r with f | _ | ⟨v, _ | ⟨w, rest⟩⟩
    · rfl
    · rfl
    · cases v <;> rfl
    · cases v <;> rfl

/-- What an announced modem can be found to be is what some inquiries settle. -/
theorem canBe_iff : a.CanBe identity ↔ ∃ inquiries, a.Settled inquiries identity := by
  constructor
  · intro h
    cases hCarried : a.identity? with
    | some carried =>
      obtain rfl := h.eq_of_identity? hCarried
      exact ⟨[], .carried hCarried⟩
    | none =>
      rw [CanBe, identify_of_identity?_eq_none hCarried] at h
      obtain ⟨linked, h⟩ := h
      cases linked with
      | false =>
        obtain rfl : identity = "" := Except.ok.inj h
        exact ⟨_, .asked none hCarried⟩
      | true =>
        obtain ⟨r, h⟩ := h
        obtain rfl := Except.ok.inj h
        exact ⟨_, .asked (some r) hCarried⟩
  · rintro ⟨inquiries, h⟩
    cases h with
    | carried hCarried =>
      rw [CanBe, identify_of_identity?_eq_some hCarried]
      rfl
    | asked reply? hNone =>
      rw [CanBe, identify_of_identity?_eq_none hNone]
      cases reply? with
      | none => exact ⟨false, rfl⟩
      | some r => exact ⟨true, r, rfl⟩

theorem stage_identify (a : Announcement) : a.Stage a.identify [] := by
  cases h : a.identity? with
  | none => exact .unasked h
  | some identity => exact identify_of_identity?_eq_some h ▸ .settled (.carried h)

/-- The inquiry about the modem at a path that a program gives up, since there is no manager. -/
def givenUp (path : String) : Request String → Bool → Option Inquiry
  | .whetherLinked _, false => some ⟨imeiQuery path, none⟩
  | _, _ => none

/-- Going on, the identification of an announced modem ends or waits for the reply. -/
theorem Stage.proceed {p : Request String} (h : a.Stage p inquiries) (linked : Bool) :
    (∃ identity, p.proceed linked = .done identity ∧
      a.Settled (inquiries ++ (givenUp a.path p linked).toList) identity) ∨
    ∃ q next, p.proceed linked = .ask q next ∧
      a.Stage (.ask q next) (inquiries ++ (givenUp a.path p linked).toList) := by
  cases h with
  | unasked h =>
    rw [identify_of_identity?_eq_none h]
    cases linked with
    | false => exact .inl ⟨"", rfl, .asked none h⟩
    | true => exact .inr ⟨_, _, rfl, .asking h⟩
  | asking h => exact .inr ⟨_, _, rfl, .asking h⟩
  | settled h => exact .inl ⟨_, rfl, by simpa [givenUp] using h⟩

/-- The reply to its question settles the identity of an announced modem. -/
theorem Stage.answered {q : Bus.Query} {next : Bus.Reply → Request String}
    (h : a.Stage (.ask q next) inquiries) (r : Bus.Reply) :
    a.Stage (next r) (inquiries ++ [⟨q, some r⟩]) := by
  generalize hp : Program.ask q next = p at h
  cases h with
  | unasked h =>
    rw [identify_of_identity?_eq_none h] at hp
    cases hp
  | asking h =>
    cases hp
    exact .settled (.asked (some r) h)
  | settled _ => cases hp

/-- Every stage ends after one question at most. -/
theorem Stage.ends {p : Request String} (h : a.Stage p inquiries) :
    Program.Ends (fun _ => True) p 1 := by
  cases h with
  | unasked _ => exact a.ends_identify.mono (fun _ _ => trivial) (Nat.le_refl 1)
  | asking _ => exact fun _ => trivial
  | settled _ => trivial

end Announcement

/-! ## Several modems -/

/-- The modem that a change announces, if it does. -/
def ObjectChange.arrival? : ObjectChange → Option Announcement
  | added a => if a.isModem then some a else none
  | removed _ => none

/-- The announcements of modems among changes. -/
def arrivals (changes : List ObjectChange) : List Announcement :=
  changes.filterMap ObjectChange.arrival?

/-- What must be asked about announced modems. -/
def questions (as : List Announcement) : List Bus.Query :=
  (as.filter fun a => a.identity?.isNone).map fun a => imeiQuery a.path

/-- The identities of announced modems: those that the announcements carry, and for the others in
turn those that inquiries lead to. -/
def identities : List Announcement → List Inquiry → List String
  | [], _ => []
  | a :: as, inquiries =>
    match a.identity?, inquiries with
    | some identity, _ => identity :: identities as inquiries
    | none, x :: later => x.identity :: identities as later
    | none, [] => []

theorem identities_cons_of_some {a : Announcement} {identity : String}
    (h : a.identity? = some identity) (as : List Announcement) (inquiries : List Inquiry) :
    identities (a :: as) inquiries = identity :: identities as inquiries := by
  simp only [identities, h]

theorem identities_cons_of_none {a : Announcement} (h : a.identity? = none)
    (as : List Announcement) (x : Inquiry) (later : List Inquiry) :
    identities (a :: as) (x :: later) = x.identity :: identities as later := by
  simp only [identities, h]

/-- One more announced modem has the identity that is settled next. -/
theorem identities_concat {as : List Announcement} {a : Announcement}
    {before inquiries : List Inquiry} {identity : String}
    (hBefore : before.map Inquiry.question = questions as) (h : a.Settled inquiries identity) :
    identities (as ++ [a]) (before ++ inquiries) = identities as before ++ [identity] := by
  induction as generalizing before with
  | nil =>
    obtain rfl : before = [] := List.map_eq_nil_iff.mp hBefore
    cases h with
    | carried hCarried => exact identities_cons_of_some hCarried [] []
    | asked reply? hNone => exact identities_cons_of_none hNone [] _ []
  | cons first rest ih =>
    cases hFirst : first.identity? with
    | some carried =>
      have hRest : before.map Inquiry.question = questions rest := by
        simpa [questions, hFirst] using hBefore
      rw [List.cons_append, identities_cons_of_some hFirst, identities_cons_of_some hFirst,
        ih hRest, List.cons_append]
    | none =>
      have hNext : before.map Inquiry.question = imeiQuery first.path :: questions rest := by
        simpa [questions, hFirst] using hBefore
      obtain ⟨x, later, rfl, -, hRest⟩ := List.map_eq_cons_iff.mp hNext
      rw [List.cons_append, List.cons_append, identities_cons_of_none hFirst,
        identities_cons_of_none hFirst, ih hRest, List.cons_append]

theorem questions_concat {as : List Announcement} {a : Announcement}
    {before inquiries : List Inquiry} {identity : String}
    (hBefore : before.map Inquiry.question = questions as) (h : a.Settled inquiries identity) :
    (before ++ inquiries).map Inquiry.question = questions (as ++ [a]) := by
  have hLast : inquiries.map Inquiry.question = questions [a] := by
    cases h with
    | carried hCarried => simp [questions, hCarried]
    | asked reply? hNone => simp [questions, hNone]
  rw [List.map_append, hBefore, hLast]
  simp only [questions, List.filter_append, List.map_append]

/-- The identity of a modem that comes by an event. -/
def Registry.Event.identity? {H : Type} : Event H → Option String
  | added _ identity => some identity
  | _ => none

theorem filterMap_identity?_filter (history : List (Event Nat)) :
    (history.filter (·.isAdded)).filterMap Event.identity? = history.filterMap Event.identity? := by
  rw [List.filterMap_filter]
  refine List.filterMap_congr fun e _ => ?_
  cases e <;> rfl

theorem arrivals_filter_isAdded (changes : List ObjectChange) :
    arrivals (changes.filter (·.isAdded)) = arrivals changes := by
  rw [arrivals, List.filterMap_filter]
  refine List.filterMap_congr fun c _ => ?_
  cases c <;> rfl

/-- The modems that come by a history have the identities that are carried by their announcements
or told in inquiries, and nothing is asked but what must be. -/
structure Learned (changes : List ObjectChange) (history : List (Event Nat))
    (inquiries : List Inquiry) : Prop where
  asked : inquiries.map Inquiry.question = questions (arrivals changes)
  found : history.filterMap Event.identity? = identities (arrivals changes) inquiries

namespace Learned

variable {changes changes' : List ObjectChange} {history history' : List (Event Nat)}
  {inquiries more : List Inquiry}

theorem nil : Learned [] [] [] := ⟨rfl, rfl⟩

/-- Only announcements of modems and what they lead to matter. -/
theorem of_isAdded (h : Learned changes history inquiries)
    (hChanges : changes'.filter (·.isAdded) = changes.filter (·.isAdded))
    (hHistory : history'.filter (·.isAdded) = history.filter (·.isAdded)) :
    Learned changes' history' inquiries := by
  have hArrivals : arrivals changes' = arrivals changes := by
    rw [← arrivals_filter_isAdded, hChanges, arrivals_filter_isAdded]
  have hIdentities : history'.filterMap Event.identity? = history.filterMap Event.identity? := by
    rw [← filterMap_identity?_filter, hHistory, filterMap_identity?_filter]
  exact ⟨hArrivals ▸ h.asked, hArrivals ▸ hIdentities ▸ h.found⟩

theorem concat_of_isModem_eq_false {a : Announcement} (h : Learned changes history inquiries)
    (hModem : a.isModem = false) : Learned (changes ++ [.added a]) history inquiries := by
  have hArrivals : arrivals (changes ++ [.added a]) = arrivals changes := by
    simp [arrivals, ObjectChange.arrival?, hModem]
  exact ⟨hArrivals ▸ h.asked, hArrivals ▸ h.found⟩

theorem concat {a : Announcement} {identity : String} (h : Learned changes history inquiries)
    (hModem : a.isModem = true) (hSettled : a.Settled more identity) (object : Tracked Nat) :
    Learned (changes ++ [.added a]) (history ++ [.added object identity]) (inquiries ++ more) := by
  have hArrivals : arrivals (changes ++ [.added a]) = arrivals changes ++ [a] := by
    simp [arrivals, ObjectChange.arrival?, hModem]
  constructor
  · rw [hArrivals, questions_concat h.asked hSettled]
  · rw [hArrivals, identities_concat h.asked hSettled, List.filterMap_append, h.found]
    rfl

end Learned

end ModemLink
