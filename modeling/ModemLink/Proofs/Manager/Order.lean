import Mathlib.Data.List.Induction
import Mathlib.Data.List.Infix
import ModemLink.Proofs.Manager.Inquiries

/-!
# The order of changes

Announcements and removals reach the registry by way of the two queues of the tracker. Each queue
keeps its order, whatever the turns are. Between the queues the order is kept as far as the changes
of a modem never wait in both at the same time; where they do, the queue that is looked at first
decides, and a modem that has come back can be taken for gone.

* `turned_step`: everything that a turn of the tracker can do.
* `inquiries`: what announced modems have been asked, and what they have told.
* `Account`: what has become of the changes that have come so far.
* `Past`: what has happened to the registry when the tracker is at rest.
* `changes_in_order`: how far that is what the bus told, in its order.
* `bus_order_not_kept`: changes that change places.
-/

namespace ModemLink

open Registry (Event)
open ObjectChange (Enacts)

namespace Tracker

/-! ## Turns -/

/-- Everything that a turn of a tracker can do. -/
inductive Turned (linked : Bool) (fresh : Nat) (t : Tracker) (modems : Modems) :
    Tracker × Modems → Prop
  | nothing (removalsFirst : Bool) (free : t.identifying = none)
      (noAnnouncement : t.announcements = []) (noRemoval : t.removals = []) :
      Turned linked fresh t modems ({ t with removalsFirst }, modems)
  | announcement (removalsFirst : Bool) {a : Announcement} {rest : List Announcement}
      (free : t.identifying = none) (first : t.announcements = a :: rest) :
      Turned linked fresh t modems
        (⟨rest, t.removals, removalsFirst, if a.isModem then some (a.path, a.identify) else none⟩,
          modems)
  | removal (removalsFirst : Bool) {r : Removal} {rest : List Removal}
      (free : t.identifying = none) (first : t.removals = r :: rest) :
      Turned linked fresh t modems
        (⟨t.announcements, rest, removalsFirst, none⟩,
          if r.removesModem then (modems.remove r.path).1 else modems)
  | identified {path identity : String} {p : Request String}
      (busy : t.identifying = some (path, p)) (ended : p.proceed linked = .done identity) :
      Turned linked fresh t modems
        ({ t with identifying := none }, (modems.add ⟨path, fresh⟩ identity).1)
  | failed {path : String} {p : Request String} {e : Error}
      (busy : t.identifying = some (path, p)) (ended : p.proceed linked = .fail e) :
      Turned linked fresh t modems ({ t with identifying := none }, modems)
  | asking {path : String} {p : Request String} {q : Bus.Query} {next : Bus.Reply → Request String}
      (busy : t.identifying = some (path, p)) (asks : p.proceed linked = .ask q next) :
      Turned linked fresh t modems ({ t with identifying := some (path, .ask q next) }, modems)

theorem turned_step (linked : Bool) (fresh : Nat) (t : Tracker) (modems : Modems) :
    Turned linked fresh t modems (t.step linked fresh modems) := by
  obtain ⟨announcements, removals, removalsFirst, identifying⟩ := t
  cases identifying with
  | some busy =>
    obtain ⟨path, p⟩ := busy
    rcases p.proceed_cases linked with ⟨identity, h⟩ | ⟨e, h⟩ | ⟨q, next, h⟩
    · simp only [step, h]
      exact .identified rfl h
    · simp only [step, h]
      exact .failed rfl h
    · simp only [step, h]
      exact .asking rfl h
  | none =>
    have hTakeAdded : ∀ a rest order, announcements = a :: rest →
        Turned linked fresh ⟨announcements, removals, removalsFirst, none⟩ modems
          (take ⟨rest, removals, order, none⟩ modems (.added a)) := by
      intro a rest order h
      have hTurned : Turned linked fresh ⟨announcements, removals, removalsFirst, none⟩ modems _ :=
        .announcement order rfl h
      cases hModem : a.isModem <;> simpa [take, hModem] using hTurned
    have hTakeRemoved : ∀ r rest order, removals = r :: rest →
        Turned linked fresh ⟨announcements, removals, removalsFirst, none⟩ modems
          (take ⟨announcements, rest, order, none⟩ modems (.removed r)) :=
      fun r rest order h => .removal order rfl h
    cases announcements with
    | nil =>
      cases removals with
      | nil => cases removalsFirst <;> exact .nothing _ rfl rfl rfl
      | cons r rest => cases removalsFirst <;> exact hTakeRemoved r rest _ rfl
    | cons a rest =>
      cases removals with
      | nil => cases removalsFirst <;> exact hTakeAdded a rest _ rfl
      | cons r rest' =>
        cases removalsFirst with
        | false => exact hTakeAdded a rest _ rfl
        | true => exact hTakeRemoved r rest' _ rfl

/-! ## Runs -/

/-- Something that happens while a tracker keeps a registry: a signal comes, the tracker has a turn
or gets a reply, somebody makes a request or drops one. -/
inductive Move
  | signal (member : String) (arguments : List Bus.Value)
  | turn (linked : Bool) (fresh : Nat)
  | replied (r : Bus.Reply)
  | requested (filter : ModemFilter)
  | dropped (id : Registry.RequestId)

/-- The change that a signal tells. One whose arguments are not as declared tells none. -/
def Move.change? : Move → Option ObjectChange
  | signal member arguments => Manager.change? member arguments
  | _ => none

/-- What a caller does with the registry. -/
def Move.call? : Move → Option (Event Nat)
  | requested filter => some (.requested filter)
  | dropped id => some (.dropped id)
  | _ => none

def move (s : Tracker × Modems) : Move → Tracker × Modems
  | .signal member arguments => (((Manager.change? member arguments).map s.1.notify).getD s.1, s.2)
  | .turn linked fresh => s.1.step linked fresh s.2
  | .replied r => (s.1.reply r, s.2)
  | .requested filter => (s.1, s.2.apply (.requested filter))
  | .dropped id => (s.1, s.2.apply (.dropped id))

/-- The tracker and the registry after moves, from a tracker on that has nothing to do. -/
def run (modems : Modems) (moves : List Move) : Tracker × Modems := moves.foldl move (idle, modems)

theorem run_append (modems : Modems) (first rest : List Move) :
    run modems (first ++ rest) = rest.foldl move (run modems first) := List.foldl_append

/-- The queues do not tell which of an announcement and a removal came first. -/
theorem run_swap {x y : Move} {a : Announcement} {r : Removal} (hx : x.change? = some (.added a))
    (hy : y.change? = some (.removed r)) (modems : Modems) (moves later : List Move) :
    run modems (moves ++ x :: y :: later) = run modems (moves ++ y :: x :: later) := by
  have hMove : ∀ {z : Move} {c : ObjectChange}, z.change? = some c →
      ∀ s, move s z = (s.1.notify c, s.2) := by
    intro z c hz s
    cases z with
    | signal member arguments =>
      have hChange : Manager.change? member arguments = some c := hz
      simp [move, hChange]
    | _ => cases hz
  rw [run_append, run_append, List.foldl_cons, List.foldl_cons, List.foldl_cons, List.foldl_cons,
    hMove hx, hMove hy, hMove hx, hMove hy]
  rfl

/-- The changes that signals have told. -/
def sent (moves : List Move) : List ObjectChange := moves.filterMap Move.change?

def calls (moves : List Move) : List (Event Nat) := moves.filterMap Move.call?

/-- The inquiry about an announced modem that ends with a move: its question is replied to, or the
tracker gives it up, since there is no manager. -/
def Move.inquiry? (t : Tracker) : Move → Option Inquiry
  | .turn linked _ => t.identifying.bind fun (path, p) => Announcement.givenUp path p linked
  | .replied r => t.question?.map fun q => ⟨q, some r⟩
  | _ => none

def inquiriesFrom (s : Tracker × Modems) : List Move → List Inquiry
  | [] => []
  | x :: rest => (x.inquiry? s.1).toList ++ inquiriesFrom (move s x) rest

/-- The inquiries about announced modems that have ended. -/
def inquiries (modems : Modems) (moves : List Move) : List Inquiry :=
  inquiriesFrom (idle, modems) moves

theorem inquiriesFrom_concat (s : Tracker × Modems) (moves : List Move) (x : Move) :
    inquiriesFrom s (moves ++ [x]) =
      inquiriesFrom s moves ++ (x.inquiry? (moves.foldl move s).1).toList := by
  induction moves generalizing s with
  | nil => exact List.append_nil _
  | cons first rest ih =>
    rw [List.cons_append, inquiriesFrom, inquiriesFrom, ih, List.append_assoc, List.foldl_cons]

/-! ## What waits -/

/-- What the tracker is occupied with: identifying the announced modem, if there is one, after the
inquiries about it. -/
def Occupied (t : Tracker) (busy : List Announcement) (pending : List Inquiry) : Prop :=
  match t.identifying with
  | none => busy = [] ∧ pending = []
  | some (path, p) => ∃ a, busy = [a] ∧ a.isModem = true ∧ path = a.path ∧ a.Stage p pending

theorem Occupied.replied {t : Tracker} {busy : List Announcement} {pending : List Inquiry}
    (h : Occupied t busy pending) (r : Bus.Reply) :
    Occupied (t.reply r) busy (pending ++ ((Move.replied r).inquiry? t).toList) := by
  unfold Occupied at h
  unfold reply Move.inquiry? question?
  split
  · rename_i path q next hBusy
    rw [hBusy] at h
    obtain ⟨a, hOnly, hModem, hPath, hStage⟩ := h
    exact ⟨a, hOnly, hModem, hPath, hStage.answered r⟩
  · simpa [Occupied] using h

/-- The changes that have not been dealt with, those that are being dealt with among them. -/
def queued (busy : List Announcement) (t : Tracker) : List ObjectChange :=
  (busy ++ t.announcements).map .added ++ t.removals.map .removed

/-- No announcement and removal wait together that are both picked. -/
def Apart (picks : ObjectChange → Bool) (t : Tracker) : Prop :=
  ∀ a ∈ t.announcements, ∀ r ∈ t.removals,
    ¬ (picks (.added a) = true ∧ picks (.removed r) = true)

/-- No announcement and removal ever wait together that are both picked. -/
def AlwaysApart (picks : ObjectChange → Bool) (modems : Modems) (moves : List Move) : Prop :=
  ∀ first rest, moves = first ++ rest → Apart picks (run modems first).1

theorem AlwaysApart.last {picks : ObjectChange → Bool} {modems : Modems} {moves : List Move}
    (h : AlwaysApart picks modems moves) : Apart picks (run modems moves).1 :=
  h moves [] (List.append_nil moves).symm

theorem AlwaysApart.of_append {picks : ObjectChange → Bool} {modems : Modems}
    {moves more : List Move} (h : AlwaysApart picks modems (moves ++ more)) :
    AlwaysApart picks modems moves := by
  rintro first rest rfl
  exact h first (rest ++ more) (List.append_assoc first rest more)

theorem alwaysApart_of_isEmpty {modems : Modems} {moves : List Move}
    (h : (moves.inits.all fun first => (run modems first).1.announcements.isEmpty ||
      (run modems first).1.removals.isEmpty) = true) (picks : ObjectChange → Bool) :
    AlwaysApart picks modems moves := by
  rintro first rest hMoves a ha r hr -
  have hFirst := List.all_eq_true.mp h first
    ((List.mem_inits first moves).mpr ⟨rest, hMoves.symm⟩)
  rcases Bool.or_eq_true_iff.mp hFirst with hEmpty | hEmpty
  · rw [List.isEmpty_iff.mp hEmpty] at ha
    cases ha
  · rw [List.isEmpty_iff.mp hEmpty] at hr
    cases hr

theorem alwaysApart_of_isAdded {picks : ObjectChange → Bool} (kind : Bool)
    (h : ∀ c, picks c = true → c.isAdded = kind) (modems : Modems) (moves : List Move) :
    AlwaysApart picks modems moves := by
  rintro first rest - a - r - ⟨ha, hr⟩
  have hSame : (ObjectChange.added a).isAdded = (ObjectChange.removed r).isAdded :=
    (h _ ha).trans (h _ hr).symm
  cases hSame

/-- What has become of the changes after moves: those that are done with are in the history of the
registry, and the others wait. They are in order as far as they are apart. The inquiries that have
ended are those about modems that are done with, and about the one that is being identified. -/
structure Account (modems : Modems) (moves : List Move) (busy : List Announcement)
    (finished : List ObjectChange) (history : List (Event Nat)) : Prop where
  registry : (run modems moves).2 = modems.applyAll history
  called : history.filter (!·.isChange) = calls moves
  follows : Follows finished history
  inquired : ∃ settled pending, inquiries modems moves = settled ++ pending ∧
    Learned finished history settled ∧ Occupied (run modems moves).1 busy pending
  ordered : ∀ picks, AlwaysApart picks modems moves →
    (finished ++ queued busy (run modems moves).1).filter picks = (sent moves).filter picks

namespace Account

variable {modems : Modems} {moves : List Move} {busy : List Announcement}
  {finished : List ObjectChange} {history : List (Event Nat)}

theorem start (modems : Modems) : Account modems [] [] [] [] where
  registry := rfl
  called := rfl
  follows := .nil
  inquired := ⟨[], [], rfl, .nil, rfl, rfl⟩
  ordered _ _ := rfl

theorem of_move (h : Account modems moves busy finished history) {x : Move} {t : Tracker}
    {r : Modems} {busy' : List Announcement} {finished' : List ObjectChange}
    {history' : List (Event Nat)} (hMove : move (run modems moves) x = (t, r))
    (registry : r = modems.applyAll history')
    (called : history'.filter (!·.isChange) = history.filter (!·.isChange) ++ x.call?.toList)
    (follows : Follows finished' history')
    (inquired : ∃ settled pending,
      inquiries modems moves ++ (x.inquiry? (run modems moves).1).toList = settled ++ pending ∧
        Learned finished' history' settled ∧ Occupied t busy' pending)
    (ordered : ∀ picks, Apart picks (run modems moves).1 → Apart picks t →
      (finished' ++ queued busy' t).filter picks =
        (finished ++ queued busy (run modems moves).1 ++ x.change?.toList).filter picks) :
    Account modems (moves ++ [x]) busy' finished' history' := by
  have hRun : run modems (moves ++ [x]) = (t, r) := by
    rw [run_append, ← hMove]
    rfl
  have hLast : ∀ {β : Type} (f : Move → Option β),
      (moves ++ [x]).filterMap f = moves.filterMap f ++ (f x).toList := by
    intro β f
    rw [List.filterMap_append, List.filterMap_cons]
    cases f x <;> rfl
  constructor
  · rw [hRun, registry]
  · rw [called, h.called, calls, calls, hLast]
  · exact follows
  · rwa [hRun, inquiries, inquiriesFrom_concat]
  · intro picks hApart
    have hNew := hApart.last
    rw [hRun] at hNew ⊢
    rw [ordered picks hApart.of_append.last hNew, List.filter_append,
      h.ordered picks hApart.of_append, sent, sent, hLast, List.filter_append]

/-- Where no inquiry ends the old ones are still accounted for. -/
theorem inquired_of_none (h : Account modems moves busy finished history) {x : Move}
    (hNone : x.inquiry? (run modems moves).1 = none) :
    ∃ settled pending,
      inquiries modems moves ++ (x.inquiry? (run modems moves).1).toList = settled ++ pending ∧
        Learned finished history settled ∧ Occupied (run modems moves).1 busy pending := by
  rw [hNone, Option.toList_none, List.append_nil]
  exact h.inquired

/-- Taking the first removal up leaves what waits in order, as far as it is apart. -/
theorem filter_queued_of_removal {picks : ObjectChange → Bool} {t : Tracker} {r : Removal}
    {rest : List Removal} (hApart : Apart picks t) (first : t.removals = r :: rest)
    (removalsFirst : Bool) :
    (.removed r :: queued [] ⟨t.announcements, rest, removalsFirst, none⟩).filter picks =
      (queued [] t).filter picks := by
  have hOthers : picks (.removed r) = true →
      (t.announcements.map ObjectChange.added).filter picks = [] := by
    intro hr
    refine List.filter_eq_nil_iff.mpr fun d hd ha => ?_
    obtain ⟨a, hMem, rfl⟩ := List.mem_map.mp hd
    exact hApart a hMem r (first ▸ List.mem_cons_self) ⟨ha, hr⟩
  simp only [queued, List.nil_append, first, List.map_cons]
  exact (Registry.filter_cons_eq_iff hOthers _ _).mpr rfl

theorem signal (h : Account modems moves busy finished history) (member : String)
    (arguments : List Bus.Value) :
    Account modems (moves ++ [.signal member arguments]) busy finished history := by
  have hSent : (Move.signal member arguments).change? = Manager.change? member arguments := rfl
  have hInquired := h.inquired_of_none (x := .signal member arguments) rfl
  cases hc : Manager.change? member arguments with
  | none =>
    refine h.of_move (t := (run modems moves).1) ?_ h.registry (by simp [Move.call?]) h.follows
      hInquired fun picks _ _ => by simp [hSent, hc]
    simp only [move, hc]
    rfl
  | some c =>
    have hMove : move (run modems moves) (.signal member arguments) =
        ((run modems moves).1.notify c, (run modems moves).2) := by
      simp only [move, hc]
      rfl
    cases c with
    | removed r =>
      refine h.of_move hMove h.registry (by simp [Move.call?]) h.follows hInquired
        fun picks _ _ => ?_
      simp [hSent, hc, queued, notify]
    | added a =>
      refine h.of_move hMove h.registry (by simp [Move.call?]) h.follows hInquired
        fun picks _ hApart => ?_
      have hOthers : picks (.added a) = true →
          ((run modems moves).1.removals.map ObjectChange.removed).filter picks = [] := by
        intro ha
        refine List.filter_eq_nil_iff.mpr fun d hd hr => ?_
        obtain ⟨r, hMem, rfl⟩ := List.mem_map.mp hd
        exact hApart a (by simp [notify]) r hMem ⟨ha, hr⟩
      have hSwap := (Registry.filter_cons_eq_iff hOthers [] _).mpr (by rw [List.append_nil])
      simp only [hSent, hc, queued, notify, List.map_append, List.append_assoc, List.filter_append,
        List.map_cons, List.map_nil, List.nil_append, List.cons_append, Option.toList_some,
        ← hSwap]

theorem replied (h : Account modems moves busy finished history) (r : Bus.Reply) :
    Account modems (moves ++ [.replied r]) busy finished history := by
  have hQueues : ∀ t : Tracker, (t.reply r).announcements = t.announcements ∧
      (t.reply r).removals = t.removals := by
    intro t
    unfold reply
    split <;> exact ⟨rfl, rfl⟩
  obtain ⟨settled, pending, hInquiries, hLearned, hOccupied⟩ := h.inquired
  refine h.of_move rfl h.registry (by simp [Move.call?]) h.follows
    ⟨settled, _, ?_, hLearned, hOccupied.replied r⟩ fun picks _ _ => ?_
  · rw [hInquiries, List.append_assoc]
  · simp [queued, hQueues, Move.change?]

theorem called_by (h : Account modems moves busy finished history) {x : Move} {e : Event Nat}
    (hCall : x.call? = some e) :
    Account modems (moves ++ [x]) busy finished (history ++ [e]) := by
  have hMove : move (run modems moves) x =
      ((run modems moves).1, (run modems moves).2.apply e) := by
    cases x <;> first | (cases hCall; rfl) | cases hCall
  have hChange : x.change? = none := by
    cases x <;> first | rfl | cases hCall
  have hNotChange : e.isChange = false := by
    cases x <;> first | (cases hCall; rfl) | cases hCall
  have hNotAdded : e.isAdded = false := by
    cases x <;> first | (cases hCall; rfl) | cases hCall
  have hNoInquiry : x.inquiry? (run modems moves).1 = none := by
    cases x <;> first | rfl | cases hCall
  obtain ⟨settled, pending, hInquiries, hLearned, hOccupied⟩ := h.inquired_of_none hNoInquiry
  refine h.of_move hMove ?_ ?_ (h.follows.concat_of_isChange_eq_false hNotChange)
    ⟨settled, pending, hInquiries, hLearned.of_isAdded rfl (by simp [hNotAdded]), hOccupied⟩
    fun picks _ _ => by simp [hChange]
  · rw [Registry.applyAll_concat, h.registry]
  · simp [hCall, hNotChange]

theorem learned_of_free (h : Account modems moves busy finished history)
    (free : (run modems moves).1.identifying = none) :
    busy = [] ∧ Learned finished history (inquiries modems moves) := by
  obtain ⟨settled, pending, hInquiries, hLearned, hOccupied⟩ := h.inquired
  rw [Occupied, free] at hOccupied
  obtain ⟨rfl, rfl⟩ := hOccupied
  rw [hInquiries, List.append_nil]
  exact ⟨rfl, hLearned⟩

/-- In a turn of a tracker that is busy the identification of an announced modem goes on. -/
theorem proceed (h : Account modems moves busy finished history) {path : String}
    {p : Request String} (isBusy : (run modems moves).1.identifying = some (path, p))
    (linked : Bool) (fresh : Nat) :
    ∃ a settled pending, busy = [a] ∧ a.isModem = true ∧ path = a.path ∧
      inquiries modems moves ++ ((Move.turn linked fresh).inquiry? (run modems moves).1).toList =
        settled ++ pending ∧
      Learned finished history settled ∧
      ((∃ identity, p.proceed linked = .done identity ∧ a.Settled pending identity) ∨
        ∃ q next, p.proceed linked = .ask q next ∧ a.Stage (.ask q next) pending) := by
  obtain ⟨settled, pending, hInquiries, hLearned, hOccupied⟩ := h.inquired
  rw [Occupied, isBusy] at hOccupied
  obtain ⟨a, hOnly, hModem, rfl, hStage⟩ := hOccupied
  refine ⟨a, settled, _, hOnly, hModem, rfl, ?_, hLearned, hStage.proceed linked⟩
  rw [hInquiries, List.append_assoc, Move.inquiry?, isBusy, Option.bind_some]

section Turn

variable {linked : Bool} {fresh : Nat} {t : Tracker} {r : Modems} {busy' : List Announcement}
  {finished' : List ObjectChange} {history' : List (Event Nat)}

/-- In a turn nothing is told by the bus and nothing is done by a caller. -/
theorem of_turn (h : Account modems moves busy finished history)
    (hStep : (run modems moves).1.step linked fresh (run modems moves).2 = (t, r))
    (registry : r = modems.applyAll history')
    (called : history'.filter (!·.isChange) = history.filter (!·.isChange))
    (follows : Follows finished' history')
    (inquired : ∃ settled pending, inquiries modems moves ++
        ((Move.turn linked fresh).inquiry? (run modems moves).1).toList = settled ++ pending ∧
      Learned finished' history' settled ∧ Occupied t busy' pending)
    (ordered : ∀ picks, Apart picks (run modems moves).1 →
      (finished' ++ queued busy' t).filter picks =
        (finished ++ queued busy (run modems moves).1).filter picks) :
    Account modems (moves ++ [.turn linked fresh]) busy' finished' history' := by
  refine h.of_move hStep registry ?_ follows inquired fun picks hApart _ => ?_
  · simp [called, Move.call?]
  · simpa [Move.change?] using ordered picks hApart

/-- In a turn of a tracker that is free no inquiry ends either. -/
theorem of_free_turn (h : Account modems moves busy finished history)
    (free : (run modems moves).1.identifying = none)
    (hStep : (run modems moves).1.step linked fresh (run modems moves).2 = (t, r))
    (registry : r = modems.applyAll history')
    (called : history'.filter (!·.isChange) = history.filter (!·.isChange))
    (follows : Follows finished' history')
    (learned : Learned finished' history' (inquiries modems moves)) (occupied : Occupied t busy' [])
    (ordered : ∀ picks, Apart picks (run modems moves).1 →
      (finished' ++ queued busy' t).filter picks =
        (finished ++ queued [] (run modems moves).1).filter picks) :
    Account modems (moves ++ [.turn linked fresh]) busy' finished' history' := by
  obtain ⟨rfl, -⟩ := h.learned_of_free free
  refine h.of_turn hStep registry called follows ⟨_, [], ?_, learned, occupied⟩ ordered
  simp [Move.inquiry?, free]

theorem announcement (h : Account modems moves busy finished history) {removalsFirst : Bool}
    {a : Announcement} {rest : List Announcement}
    (free : (run modems moves).1.identifying = none)
    (first : (run modems moves).1.announcements = a :: rest)
    (hStep : (run modems moves).1.step linked fresh (run modems moves).2 =
      (⟨rest, (run modems moves).1.removals, removalsFirst,
        if a.isModem then some (a.path, a.identify) else none⟩, (run modems moves).2)) :
    ∃ busy' finished',
      Account modems (moves ++ [.turn linked fresh]) busy' finished' history := by
  obtain ⟨-, hLearned⟩ := h.learned_of_free free
  cases hModem : a.isModem with
  | true =>
    refine ⟨[a], finished, h.of_free_turn free hStep h.registry rfl h.follows hLearned ?_
      fun picks _ => by simp [queued, first]⟩
    rw [if_pos hModem]
    exact ⟨a, rfl, hModem, rfl, a.stage_identify⟩
  | false =>
    have hNoModem : (ObjectChange.added a).modem? = none := by simp [ObjectChange.modem?, hModem]
    refine ⟨[], finished ++ [.added a], h.of_free_turn free hStep h.registry rfl
      (h.follows.concat_of_modem?_eq_none hNoModem) (hLearned.concat_of_isModem_eq_false hModem) ?_
      fun picks _ => by simp [queued, first]⟩
    rw [if_neg (by simp [hModem])]
    exact ⟨rfl, rfl⟩

theorem removal (h : Account modems moves busy finished history) {removalsFirst : Bool}
    {removed : Removal} {rest : List Removal} (free : (run modems moves).1.identifying = none)
    (first : (run modems moves).1.removals = removed :: rest)
    (hStep : (run modems moves).1.step linked fresh (run modems moves).2 =
      (⟨(run modems moves).1.announcements, rest, removalsFirst, none⟩,
        if removed.removesModem then ((run modems moves).2.remove removed.path).1
        else (run modems moves).2)) :
    ∃ history', Account modems (moves ++ [.turn linked fresh]) [] (finished ++ [.removed removed])
      history' := by
  obtain ⟨-, hLearned⟩ := h.learned_of_free free
  have hOrdered : ∀ picks, Apart picks (run modems moves).1 →
      (finished ++ [ObjectChange.removed removed] ++
        queued [] ⟨(run modems moves).1.announcements, rest, removalsFirst, none⟩).filter picks =
      (finished ++ queued [] (run modems moves).1).filter picks := by
    intro picks hApart
    rw [List.append_assoc, List.singleton_append, List.filter_append, List.filter_append,
      filter_queued_of_removal hApart first removalsFirst]
  have hNotAdded : (finished ++ [ObjectChange.removed removed]).filter (·.isAdded) =
      finished.filter (·.isAdded) := by simp [ObjectChange.isAdded]
  cases hModem : removed.removesModem with
  | true =>
    have hEnacts : Enacts (.removed removed) (.removed removed.path) := ⟨hModem, rfl⟩
    refine ⟨history ++ [.removed removed.path], h.of_free_turn free hStep ?_
      (by simp [Event.isChange, Event.isRemoved]) (h.follows.concat hEnacts)
      (hLearned.of_isAdded hNotAdded (by simp [Event.isAdded])) ⟨rfl, rfl⟩ hOrdered⟩
    rw [Registry.applyAll_concat, if_pos hModem, h.registry]
    rfl
  | false =>
    have hNoModem : (ObjectChange.removed removed).modem? = none := by
      simp [ObjectChange.modem?, hModem]
    refine ⟨history, h.of_free_turn free hStep ?_ rfl
      (h.follows.concat_of_modem?_eq_none hNoModem) (hLearned.of_isAdded hNotAdded rfl) ⟨rfl, rfl⟩
      hOrdered⟩
    rw [if_neg (by simp [hModem]), h.registry]

theorem identified (h : Account modems moves busy finished history) {path identity : String}
    {p : Request String} (isBusy : (run modems moves).1.identifying = some (path, p))
    (ended : p.proceed linked = .done identity)
    (hStep : (run modems moves).1.step linked fresh (run modems moves).2 =
      ({ (run modems moves).1 with identifying := none },
        ((run modems moves).2.add ⟨path, fresh⟩ identity).1)) :
    ∃ finished' history',
      Account modems (moves ++ [.turn linked fresh]) [] finished' history' := by
  obtain ⟨a, settled, pending, rfl, hModem, rfl, hInquiries, hLearned, hProceeds⟩ :=
    h.proceed isBusy linked fresh
  have hSettled : a.Settled pending identity := by simpa [ended] using hProceeds
  have hEnacts : Enacts (.added a) (.added ⟨a.path, fresh⟩ identity) :=
    ⟨hModem, rfl, Announcement.canBe_iff.mpr ⟨_, hSettled⟩⟩
  refine ⟨finished ++ [.added a], history ++ [.added ⟨a.path, fresh⟩ identity],
    h.of_turn hStep ?_ (by simp [Event.isChange, Event.isAdded]) (h.follows.concat hEnacts)
    ⟨_, [], ?_, hLearned.concat hModem hSettled _, rfl, rfl⟩ fun picks _ => by simp [queued]⟩
  · rw [Registry.applyAll_concat, h.registry]
    rfl
  · rw [hInquiries, List.append_nil]

end Turn

theorem turn (h : Account modems moves busy finished history) (linked : Bool) (fresh : Nat) :
    ∃ busy' finished' history',
      Account modems (moves ++ [.turn linked fresh]) busy' finished' history' := by
  have hTurned := turned_step linked fresh (run modems moves).1 (run modems moves).2
  generalize hStep : (run modems moves).1.step linked fresh (run modems moves).2 = s at hTurned
  cases hTurned with
  | nothing removalsFirst free noAnnouncement noRemoval =>
    obtain ⟨-, hLearned⟩ := h.learned_of_free free
    refine ⟨[], finished, history,
      h.of_free_turn free hStep h.registry rfl h.follows hLearned ?_ fun _ _ => rfl⟩
    rw [Occupied, free]
    exact ⟨rfl, rfl⟩
  | announcement removalsFirst free first =>
    obtain ⟨busy', finished', account⟩ := h.announcement free first hStep
    exact ⟨busy', finished', history, account⟩
  | removal removalsFirst free first => exact ⟨[], _, h.removal free first hStep⟩
  | identified isBusy ended => exact ⟨[], h.identified isBusy ended hStep⟩
  | failed isBusy ended =>
    obtain ⟨_, _, _, -, -, -, -, -, hProceeds⟩ := h.proceed isBusy linked fresh
    simp [ended] at hProceeds
  | @asking path p q next isBusy asks =>
    obtain ⟨a, settled, pending, rfl, hModem, hPath, hInquiries, hLearned, hProceeds⟩ :=
      h.proceed isBusy linked fresh
    have hStage : a.Stage (.ask q next) pending := by simpa [asks] using hProceeds
    exact ⟨[a], finished, history, h.of_turn hStep h.registry rfl h.follows
      ⟨settled, pending, hInquiries, hLearned, a, rfl, hModem, hPath, hStage⟩ fun _ _ => rfl⟩

theorem next (h : Account modems moves busy finished history) (x : Move) :
    ∃ busy' finished' history', Account modems (moves ++ [x]) busy' finished' history' := by
  cases x with
  | signal member arguments => exact ⟨busy, finished, history, h.signal member arguments⟩
  | turn linked fresh => exact h.turn linked fresh
  | replied r => exact ⟨busy, finished, history, h.replied r⟩
  | requested filter => exact ⟨busy, finished, _, h.called_by rfl⟩
  | dropped id => exact ⟨busy, finished, _, h.called_by rfl⟩

end Account

theorem exists_account (modems : Modems) (moves : List Move) :
    ∃ busy finished history, Account modems moves busy finished history := by
  induction moves using List.reverseRecOn with
  | nil => exact ⟨[], [], [], .start modems⟩
  | append_singleton moves x ih =>
    obtain ⟨busy, finished, history, h⟩ := ih
    exact h.next x

/-! ## Coming to rest -/

/-- The tracker is at rest after so many rounds at most, each a turn and a reply: one question is
asked for an announcement at most. -/
def Within (t : Tracker) (n : Nat) : Prop :=
  match t.identifying with
  | none => 3 * (t.announcements.length + t.removals.length) ≤ n
  | some (_, p) => ∃ k, Program.Ends (fun _ => True) p k ∧
      3 * (t.announcements.length + t.removals.length) + k + 1 ≤ n

theorem Occupied.within {t : Tracker} {busy : List Announcement} {pending : List Inquiry}
    (h : Occupied t busy pending) :
    Within t (3 * (t.announcements.length + t.removals.length) + 2) := by
  unfold Occupied at h
  unfold Within
  split at h
  · omega
  · obtain ⟨a, -, -, -, hStage⟩ := h
    exact ⟨1, hStage.ends, Nat.le_refl _⟩

theorem Within.mono {t : Tracker} {n m : Nat} (h : Within t n) (hLe : n ≤ m) : Within t m := by
  unfold Within at h ⊢
  split at h
  · exact Nat.le_trans h hLe
  · obtain ⟨k, hEnds, hBound⟩ := h
    exact ⟨k, hEnds, Nat.le_trans hBound hLe⟩

theorem Within.isIdle {t : Tracker} (h : Within t 0) : t.isIdle = true := by
  unfold Within at h
  split at h
  · rename_i hFree
    obtain ⟨hAnnouncements, hRemovals⟩ : t.announcements = [] ∧ t.removals = [] :=
      ⟨List.length_eq_zero_iff.mp (by omega), List.length_eq_zero_iff.mp (by omega)⟩
    simp [Tracker.isIdle, hFree, hAnnouncements, hRemovals]
  · obtain ⟨k, -, hLe⟩ := h
    omega

theorem Within.replied {t : Tracker} {n : Nat} (h : Within t n) (r : Bus.Reply) :
    Within (t.reply r) n := by
  unfold reply
  split
  · rename_i path q next hBusy
    simp only [Within, hBusy] at h
    obtain ⟨k, hEnds, hLe⟩ := h
    cases k with
    | zero => exact hEnds.elim
    | succ k => exact ⟨k, hEnds r, by dsimp only; omega⟩
  · exact h

/-- With a turn and a reply the tracker comes nearer to rest. -/
theorem Within.round {s : Tracker × Modems} {n : Nat} (h : Within s.1 (n + 1)) (linked : Bool)
    (fresh : Nat) (r : Bus.Reply) :
    Within (move (move s (.turn linked fresh)) (.replied r)).1 n := by
  have hTurned := turned_step linked fresh s.1 s.2
  simp only [move]
  generalize s.1.step linked fresh s.2 = s' at hTurned
  cases hTurned with
  | nothing removalsFirst free noAnnouncement noRemoval =>
    refine Within.replied ?_ r
    simp [Within, free, noAnnouncement, noRemoval]
  | @announcement removalsFirst a rest free first =>
    simp only [Within, free, first, List.length_cons] at h
    refine Within.replied ?_ r
    cases a.isModem with
    | true =>
      refine ⟨1, a.ends_identify.mono (fun _ _ => trivial) (Nat.le_refl 1), ?_⟩
      dsimp only
      omega
    | false =>
      show 3 * (rest.length + s.1.removals.length) ≤ n
      omega
  | @removal removalsFirst r rest free first =>
    simp only [Within, free, first, List.length_cons] at h
    refine Within.replied ?_ _
    show 3 * (s.1.announcements.length + rest.length) ≤ n
    omega
  | identified busy ended =>
    simp only [Within, busy] at h
    obtain ⟨k, -, hLe⟩ := h
    refine Within.replied ?_ r
    show 3 * (s.1.announcements.length + s.1.removals.length) ≤ n
    omega
  | failed busy ended =>
    simp only [Within, busy] at h
    obtain ⟨k, -, hLe⟩ := h
    refine Within.replied ?_ r
    show 3 * (s.1.announcements.length + s.1.removals.length) ≤ n
    omega
  | asking busy asks =>
    simp only [Within, busy] at h
    obtain ⟨k, hEnds, hLe⟩ := h
    have hAsks := Program.ends_proceed hEnds linked
    rw [asks] at hAsks
    cases k with
    | zero => exact hAsks.elim
    | succ k =>
      refine ⟨k, hAsks r, ?_⟩
      show 3 * (s.1.announcements.length + s.1.removals.length) + k + 1 ≤ n
      omega

/-- Turns, each with a reply to the question that is asked in it. -/
def rounds (rs : List (Bool × Nat × Bus.Reply)) : List Move :=
  rs.flatMap fun (linked, fresh, r) => [.turn linked fresh, .replied r]

theorem Within.rounds {n : Nat} {s : Tracker × Modems} (h : Within s.1 n)
    (rs : List (Bool × Nat × Bus.Reply)) :
    Within ((Tracker.rounds rs).foldl move s).1 (n - rs.length) := by
  induction rs generalizing n s with
  | nil => exact h
  | cons first rs ih =>
    obtain ⟨linked, fresh, r⟩ := first
    have hRound := (h.mono (show n ≤ n - 1 + 1 by omega)).round linked fresh r
    have hRest := ih hRound
    rwa [Nat.sub_sub, Nat.add_comm] at hRest

/-! ## At rest -/

/-- What has happened to the registry by moves that leave the tracker at rest: callers have done
what they did in turn, and the modems that came have the identities that their announcements carry
or that they have told. -/
structure Past (modems : Modems) (moves : List Move) (history : List (Event Nat)) : Prop where
  registry : (run modems moves).2 = modems.applyAll history
  called : history.filter (!·.isChange) = calls moves
  learned : Learned (sent moves) history (inquiries modems moves)

namespace Account

variable {modems : Modems} {moves : List Move} {busy : List Announcement}
  {finished : List ObjectChange} {history : List (Event Nat)}

theorem learned_of_isIdle (account : Account modems moves busy finished history)
    (hIdle : (run modems moves).1.isIdle = true) :
    busy = [] ∧ Learned finished history (inquiries modems moves) := by
  simp only [Tracker.isIdle, Bool.and_eq_true, Option.isNone_iff_eq_none] at hIdle
  exact account.learned_of_free hIdle.2

theorem filter_eq_of_isIdle (account : Account modems moves busy finished history)
    (hIdle : (run modems moves).1.isIdle = true) {picks : ObjectChange → Bool}
    (hApart : AlwaysApart picks modems moves) :
    finished.filter picks = (sent moves).filter picks := by
  obtain ⟨hAnnouncements, hRemovals⟩ :
      (run modems moves).1.announcements = [] ∧ (run modems moves).1.removals = [] := by
    simp only [Tracker.isIdle, Bool.and_eq_true, List.isEmpty_iff] at hIdle
    exact hIdle.1
  obtain ⟨rfl, -⟩ := account.learned_of_isIdle hIdle
  have hAll := account.ordered picks hApart
  simpa [queued, hAnnouncements, hRemovals] using hAll

/-- Announcements are never overtaken by each other, so every history that has them in the order in
which they were done with is a past. -/
theorem past (account : Account modems moves busy finished history)
    (hIdle : (run modems moves).1.isIdle = true) {inOrder : List (Event Nat)}
    (hSame : modems.applyAll history = modems.applyAll inOrder)
    (hCalls : inOrder.filter (!·.isChange) = history.filter (!·.isChange))
    (hAdded : inOrder.filter (·.isAdded) = history.filter (·.isAdded)) :
    Past modems moves inOrder where
  registry := account.registry.trans hSame
  called := hCalls.trans account.called
  learned := (account.learned_of_isIdle hIdle).2.of_isAdded
    (account.filter_eq_of_isIdle hIdle
      (alwaysApart_of_isAdded true (fun _ h => h) modems moves)).symm hAdded

/-- If the changes of each modem never wait together, the registry is as if all changes had been
done in bus order. -/
theorem exists_in_order (account : Account modems moves busy finished history)
    (hIdle : (run modems moves).1.isIdle = true)
    (hApart : ∀ path, AlwaysApart (·.isAt path) modems moves) :
    ∃ inOrder, Past modems moves inOrder ∧ Follows (sent moves) inOrder := by
  have hModems : ∀ picks, AlwaysApart picks modems moves →
      (finished.filter (·.modem?.isSome)).filter picks =
        ((sent moves).filter (·.modem?.isSome)).filter picks := by
    intro picks h
    rw [List.filter_comm, account.filter_eq_of_isIdle hIdle h, List.filter_comm]
  obtain ⟨events, hEvents, hAdded, hAt⟩ := exists_enacting account.follows
    (fun c hc => (List.mem_filter.mp hc).2)
    (hModems _ (alwaysApart_of_isAdded true (fun _ h => h) modems moves))
    (fun path => hModems _ (hApart path))
  rw [Event.filter_isChange fun _ => Event.isChange_of_isAdded] at hAdded
  simp only [Event.filter_isChange fun _ => Event.isChange_of_isAt] at hAt
  obtain ⟨inOrder, hSame, hChanges, hCalls⟩ :=
    Registry.exists_reordered modems (Enacts.isChange_of_mem hEvents) hAdded hAt
  have hSameAdded : inOrder.filter (·.isAdded) = history.filter (·.isAdded) := by
    rw [hAdded, ← hChanges, Event.filter_isChange fun _ => Event.isChange_of_isAdded]
  refine ⟨inOrder, account.past hIdle hSame hCalls hSameAdded, ?_⟩
  unfold Follows
  rwa [hChanges]

end Account

/-- **The registry follows the bus.** Whatever has happened, the tracker comes to rest if it gets
turns and replies. When it is at rest, the registry is what the changes that the bus told and what
callers did have made of it: every change of a modem is done exactly once, and announcements as well
as removals are done in their order. The identity that a modem gets is the one that its announcement
carries, or else the one in the reply to the question for its IMEI, which is asked once. Whether a
modem is known is decided by its changes in bus order, if no announcement and removal of it ever
waited together; if this holds of every modem, all changes are done in bus order, one by one. Which
of the two comes first makes no difference where nothing happens between them, so one of the orders
is not kept. -/
theorem changes_in_order (modems : Modems) (moves : List Move) :
    (∀ rs : List (Bool × Nat × Bus.Reply),
      3 * ((run modems moves).1.announcements.length +
        (run modems moves).1.removals.length) + 2 ≤ rs.length →
      (run modems (moves ++ rounds rs)).1.isIdle = true) ∧
    ((run modems moves).1.isIdle = true →
      (∃ history, Past modems moves history ∧
        ∀ kind, Follows ((sent moves).filter (·.isAdded == kind))
          (history.filter (·.isAdded == kind))) ∧
      (∀ path, AlwaysApart (·.isAt path) modems moves →
        (run modems moves).2.knows path =
          (sent moves).foldl (fun known c => c.knowsAfter path known) (modems.knows path)) ∧
      ((∀ path, AlwaysApart (·.isAt path) modems moves) →
        ∃ history, Past modems moves history ∧ Follows (sent moves) history)) ∧
    ∀ x y a r later, x.change? = some (.added a) → y.change? = some (.removed r) →
      run modems (moves ++ x :: y :: later) = run modems (moves ++ y :: x :: later) := by
  obtain ⟨busy, finished, history, account⟩ := exists_account modems moves
  refine ⟨fun rs hLen => ?_, fun hIdle => ?_,
    fun x y a r later hx hy => run_swap hx hy modems moves later⟩
  · obtain ⟨_, _, -, -, hOccupied⟩ := account.inquired
    have hRest := hOccupied.within.rounds rs
    rw [Nat.sub_eq_zero_of_le hLen] at hRest
    rw [run_append]
    exact hRest.isIdle
  have hKind : ∀ kind, finished.filter (·.isAdded == kind) =
      (sent moves).filter (·.isAdded == kind) :=
    fun kind => account.filter_eq_of_isIdle hIdle
      (alwaysApart_of_isAdded kind (by simp) modems moves)
  refine ⟨⟨history, account.past hIdle rfl rfl rfl, fun kind => ?_⟩, fun path hApart => ?_,
    fun hApart => account.exists_in_order hIdle hApart⟩
  · rw [← hKind kind]
    exact account.follows.filter_isAdded kind
  · rw [account.registry, account.follows.knows_applyAll, ObjectChange.foldl_knowsAfter,
      account.filter_eq_of_isIdle hIdle hApart, ← ObjectChange.foldl_knowsAfter]

/-- A modem that is identified by a reply and then goes, while a request is made. If it then comes
and goes at once, it could as well go and come. -/
theorem changes_in_order_passing :
    let path := "/org/freedesktop/ModemManager1/Modem/0"
    let comes : Move :=
      .signal "InterfacesAdded" [.path path, .interfaces [(Bus.Interface.modem, [])]]
    let goes : Move := .signal "InterfacesRemoved" [.path path, .strings [Bus.Interface.modem]]
    let moves : List Move :=
      [.requested .any, comes, .turn true 1, .turn true 2, goes, .replied (.ok [.string "7"]),
        .turn true 3, .turn true 4]
    ((run .empty moves).1.isIdle = true ∧
      (∀ other, AlwaysApart (·.isAt other) .empty moves) ∧
      (run .empty moves).2.knows path = false ∧
      (run .empty moves).2.outcome? 0 = some (.ok ⟨path, 3⟩) ∧
      ∃ history, Past .empty moves history ∧ history.filterMap Event.identity? = ["7"] ∧
        Follows (sent moves) history) ∧
      run .empty (moves ++ [comes, goes]) = run .empty (moves ++ [goes, comes]) := by
  intro path comes goes moves
  have hIdle : (run .empty moves).1.isIdle = true := by subst moves comes goes path; rfl
  have hApart : ∀ other, AlwaysApart (·.isAt other) .empty moves := by
    intro other
    exact alwaysApart_of_isEmpty (by subst moves comes goes path; rfl) _
  obtain ⟨-, hAtRest, hSwap⟩ := changes_in_order .empty moves
  obtain ⟨-, hKnows, hHistory⟩ := hAtRest hIdle
  obtain ⟨history, past, hFollows⟩ := hHistory hApart
  have hGone : (sent moves).foldl (fun known c => c.knowsAfter path known)
      ((Registry.empty : Modems).knows path) = false := by subst moves comes goes path; rfl
  have hGiven : (run .empty moves).2.outcome? 0 = some (.ok ⟨path, 3⟩) := by
    subst moves comes goes path
    rfl
  have hTold : identities (arrivals (sent moves)) (inquiries .empty moves) = ["7"] := by
    subst moves comes goes path
    rfl
  exact ⟨⟨hIdle, hApart, (hKnows path (hApart path)).trans hGone, hGiven, history, past,
    past.learned.found.trans hTold, hFollows⟩, hSwap comes goes _ _ [] rfl rfl⟩

/-- Bus order is not kept where a removal and an announcement of one modem wait together. A modem
that has gone and come back is taken for gone, and a request for it is not met; one that has come
and gone while another one was asked for its IMEI is taken for present. -/
theorem bus_order_not_kept :
    let modem (n : String) := "/org/freedesktop/ModemManager1/Modem/" ++ n
    let comes (n : String) (radio : List (String × Bus.Value)) : Move :=
      .signal "InterfacesAdded" [.path (modem n),
        .interfaces [(Bus.Interface.modem, []), (Bus.Interface.modem3gpp, radio)]]
    let goes (n : String) : Move :=
      .signal "InterfacesRemoved" [.path (modem n), .strings [Bus.Interface.modem]]
    let known : Modems := ((Registry.empty : Modems).add ⟨modem "0", 0⟩ "7").1
    let returning : List Move :=
      [.requested (.imei "7"), goes "0", comes "0" [("Imei", .string "7")], .turn true 1,
        .turn true 2, .turn true 3]
    let passing : List Move :=
      [comes "1" [], .turn true 1, .turn true 2, comes "0" [("Imei", .string "7")], goes "0",
        .replied (.ok [.string "8"]), .turn true 3, .turn true 4, .turn true 5, .turn true 6]
    ((run known returning).1.isIdle = true ∧
        (run known returning).2.knows (modem "0") = false ∧
        (run known returning).2.outcome? 0 = none ∧
        (∀ fresh, (known.applyAll [.requested (.imei "7"), .removed (modem "0"),
          .added ⟨modem "0", fresh⟩ "7"]).outcome? 0 = some (.ok ⟨modem "0", fresh⟩)) ∧
        ∀ history, Follows (sent returning) history →
          (known.applyAll history).knows (modem "0") = true) ∧
      (run .empty passing).1.isIdle = true ∧
        (run .empty passing).2.knows (modem "0") = true ∧
        ∀ history, Follows (sent passing) history →
          ((Registry.empty : Modems).applyAll history).knows (modem "0") = false := by
  intro modem comes goes known returning passing
  subst modem comes goes known returning passing
  refine ⟨⟨by rfl, by rfl, by rfl, fun fresh => by rfl, fun history hFollows => ?_⟩, by rfl,
    by rfl, fun history hFollows => ?_⟩
  · rw [hFollows.knows_applyAll]
    rfl
  · rw [hFollows.knows_applyAll]
    rfl

end Tracker

end ModemLink
