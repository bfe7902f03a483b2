import Mathlib.Algebra.Group.Nat.Defs
import ModemLink.Proofs.Session.Guard

/-!
# Rates of signal reports

A modem reports its signal values at a rate of whole seconds, and a rate of zero turns the reports
off. Only two operations set the rate: reading the signal quality does so if the reports are off,
and an observer of the signal quality always does.

* `toNat_refreshSeconds`: the rate for a duration, which is never zero.
* `Bus.Query.SetsRate`: the calls that set the rate.
* `Modem.course_signal`, `Modem.course_watchSignal`: when the two operations make such a call, and
  what they ask before and after it.
-/

namespace ModemLink

open Bus (Query Reply Interface.signal)
open Program (Asks Course course_asking_bind_iff course_linked_asking_bind_cases
  course_ofExcept_bind_iff course_done_iff)

/-! ## Whole seconds -/

theorem toNat_refreshSeconds (milliseconds : Nat) :
    (refreshSeconds milliseconds).toNat = max 1 (min (milliseconds / 1000) (2 ^ 32 - 1)) := by
  rw [refreshSeconds, UInt32.toNat_ofNat']
  refine Nat.mod_eq_of_lt ?_
  simp only [UInt32.size]
  omega

theorem refreshSeconds_ne_zero (milliseconds : Nat) : refreshSeconds milliseconds ≠ 0 := by
  intro hZero
  have hRate := toNat_refreshSeconds milliseconds
  rw [hZero] at hRate
  simp only [UInt32.toNat_zero] at hRate
  omega

/-- Parts of a millisecond do not matter. -/
theorem toNat_refreshSeconds_div (nanoseconds : Nat) :
    (refreshSeconds (nanoseconds / 10 ^ 6)).toNat =
      max 1 (min (nanoseconds / 10 ^ 9) (2 ^ 32 - 1)) := by
  have hSeconds : nanoseconds / 10 ^ 6 / 1000 = nanoseconds / 10 ^ 9 :=
    Nat.div_div_eq_div_mul _ _ _
  rw [toNat_refreshSeconds, hSeconds]

/-- The call sets the rate of signal reports. -/
def Bus.Query.SetsRate : Query → Prop
  | .call _ _ interface member _ => interface = Interface.signal ∧ member = "Setup"
  | _ => False

instance : DecidablePred Query.SetsRate := fun q =>
  match q with
  | .call _ _ _ _ _ => inferInstanceAs (Decidable (_ ∧ _))
  | .get _ _ _ _ | .set _ _ _ _ _ | .subscribe _ => inferInstanceAs (Decidable False)

/-- The program leaves the rate of signal reports alone. -/
abbrev KeepsRate {α : Type} (p : Request α) : Prop := Asks (fun q => ¬ q.SetsRate) p

section

variable {α β : Type}

theorem KeepsRate.bind {p : Request α} {f : α → Request β} (h : KeepsRate p)
    (hNext : ∀ a, KeepsRate (f a)) : KeepsRate (p.bind f) := Program.asks_bind h hNext

theorem KeepsRate.map {p : Request α} (h : KeepsRate p) (f : α → β) :
    KeepsRate (p.bind fun a => .done (f a)) := h.bind fun _ => trivial

theorem keepsRate_ofExcept (x : Except Error α) : KeepsRate (Program.ofExcept x) :=
  Program.asks_ofExcept x

theorem keepsRate_linked {p : Request α} (h : KeepsRate p) :
    KeepsRate (Program.connection.bind fun _ => p) :=
  Program.asks_bind Program.asks_connection fun _ => h

theorem keepsRate_property (service : Bus.Service) (path interface name : String)
    (type : Bus.ValueType α) : KeepsRate (Request.property service path interface name type) :=
  Program.asks_asking not_false _ _

theorem keepsRate_write (service : Bus.Service) (path interface name : String) (v : Bus.Value) :
    KeepsRate (Request.write service path interface name v) :=
  Program.asks_asking not_false _ _

theorem keepsRate_command {interface : String} (h : interface ≠ Interface.signal)
    (service : Bus.Service) (path member : String) (arguments : List Bus.Value)
    (reply : Bus.BodyType α) (failure : Bus.Fault → Error) :
    KeepsRate (Request.command service path interface member arguments reply failure) :=
  Program.asks_asking (fun hSets => h hSets.1) _ _

theorem keepsRate_subscribe (s : Bus.Subscription) : KeepsRate (Request.subscribe s) :=
  KeepsRate.map (Program.asks_asking not_false _ _) _

end

/-- The calls among some questions that set the rate. -/
def rateCalls (asked : List Query) : List Query := asked.filter fun q => q.SetsRate

theorem rateCalls_of_none {asked : List Query} (h : ∀ q ∈ asked, ¬ q.SetsRate) :
    rateCalls asked = [] :=
  List.filter_eq_nil_iff.mpr fun q hq => by simpa using h q hq

theorem rateCalls_cons {q : Query} (h : q.SetsRate) (asked : List Query) :
    rateCalls (q :: asked) = q :: rateCalls asked := List.filter_cons_of_pos (by simpa using h)

theorem rateCalls_cons_of_not {q : Query} (h : ¬ q.SetsRate) (asked : List Query) :
    rateCalls (q :: asked) = rateCalls asked := List.filter_cons_of_neg (by simpa using h)

namespace Modem

variable {path : String} {asked : List Query} {told : List Reply}

/-- The question at which rate the modem reports. -/
def rateQuery (path : String) : Query := .get .modemManager path Interface.signal "Rate"

/-- The call that sets the rate for a duration in milliseconds. -/
def setupQuery (path : String) (milliseconds : Nat) : Query :=
  .call .modemManager path Interface.signal "Setup" [.uint32 (refreshSeconds milliseconds)]

theorem setsRate_setupQuery (path : String) (milliseconds : Nat) :
    (setupQuery path milliseconds).SetsRate := ⟨rfl, rfl⟩

theorem content_uint32 {r : Reply} {n : UInt32} (h : r.content (.single .uint32) = .ok n) :
    r = .ok [.uint32 n] := by
  obtain ⟨v, rfl, hRead⟩ := Reply.content_single.mp h
  cases v with
  | uint32 m => rw [Option.some.inj hRead]
  | _ => cases hRead

/-! ## Courses -/

/-- Whatever follows on the required state. -/
theorem course_require_bind {α : Type} {r : Requirement} {action : String} {p : Request α}
    {x : Option (Except Error α)}
    (h : Course ((require path r action).bind fun _ => p) asked told x) :
    asked <+: [stateQuery path] ∧ told.length ≤ 1 ∧ (∀ a, x ≠ some (.ok a)) ∨
      ∃ code later more, asked = stateQuery path :: later ∧ told = .ok [.int32 code] :: more ∧
        Course p later more x := by
  have hState : (require path r action).bind (fun _ => p) =
      ((Program.connection.bind fun _ => Request.asking (stateQuery path) (.single .int32)
        fun f => .bus f.standard).bind fun code =>
          (Program.ofExcept (r.check action (.ofCode code))).bind fun _ => p) := by
    simp only [require, state, property, Program.bind_eq, Program.bind_assoc]
    rfl
  rw [hState] at h
  rcases course_linked_asking_bind_cases h with
    ⟨hAsked, hTold, -, hEnd⟩ | ⟨r, code, later, more, rfl, rfl, hCode, hNext⟩
  · exact .inl ⟨hAsked, hTold, hEnd⟩
  rcases course_ofExcept_bind_iff.mp hNext with ⟨e, -, rfl, rfl, rfl | rfl⟩ | ⟨u, -, hRest⟩
  · exact .inl ⟨List.prefix_refl _, by simp, by simp⟩
  · exact .inl ⟨List.prefix_refl _, by simp, by simp⟩
  · obtain rfl := content_int32 hCode
    exact .inr ⟨code, later, more, rfl, rfl, hRest⟩

/-- Reads the signal quality of the generation in use. -/
def readInUse (path : String) : Request Signal := do
  readSignal path (← Program.ofExcept (← technology path).generation)

theorem signal_eq (path : String) (config : Config) :
    signal path config =
      (require path (.atLeast .registered) "access signal quality").bind fun _ =>
        (Program.connection.bind fun _ => Request.asking (rateQuery path) (.single .uint32)
          fun f => .bus f.standard).bind fun rate =>
            if rate = 0 then
              (Request.asking (setupQuery path config.signalRefresh) .nothing .bus).bind fun _ =>
                readInUse path
            else readInUse path := by
  simp only [signal, Program.bind_eq, Program.bind_assoc]
  rfl

/-- The signal quality is read without another look at the rate. -/
theorem keepsRate_readInUse (path : String) : KeepsRate (readInUse path) := by
  refine ((keepsRate_linked (keepsRate_property _ _ _ _ _)).map _).bind fun t => ?_
  refine (keepsRate_ofExcept _).bind fun g => ?_
  exact (keepsRate_property _ _ _ _ _).bind fun _ => keepsRate_ofExcept _

/-- Either the rate has not been read, or it was set if it was zero, before anything else was asked,
and only then. -/
theorem course_signal {config : Config} {x : Option (Except Error Signal)}
    (h : Course (signal path config) asked told x) :
    (asked <+: [stateQuery path, rateQuery path] ∧
      (x = none ∨ ∀ rate, told[1]? ≠ some (.ok [.uint32 rate]))) ∨
    ∃ code rate later more, told = .ok [.int32 code] :: .ok [.uint32 rate] :: more ∧
      asked = stateQuery path :: rateQuery path ::
        ((if rate = 0 then [setupQuery path config.signalRefresh] else []) ++ later) ∧
      ∀ q ∈ later, ¬ q.SetsRate := by
  rw [signal_eq] at h
  rcases course_require_bind h with ⟨hState, hTold, -⟩ | ⟨code, later, more, rfl, rfl, hRest⟩
  · refine .inl ⟨hState.trans (List.prefix_append [_] [_]), .inr fun rate hRate => ?_⟩
    rw [List.getElem?_eq_none hTold] at hRate
    cases hRate
  rcases course_linked_asking_bind_cases hRest with
    ⟨hAsked, -, hUnread, -⟩ | ⟨r, rate, later, more, rfl, rfl, hRate, hNext⟩
  · refine .inl ⟨List.cons_prefix_cons.mpr ⟨rfl, hAsked⟩, .inr fun rate hRate => ?_⟩
    exact hUnread _ (List.mem_of_getElem? hRate) rate rfl
  obtain rfl := content_uint32 hRate
  split at hNext
  · rename_i hZero
    rcases course_asking_bind_iff.mp hNext with
      ⟨rfl, rfl, rfl | rfl⟩ | ⟨r, later, more, rfl, rfl, ⟨e, -, rfl, rfl, -⟩ | ⟨-, -, hNext⟩⟩
    · exact .inl ⟨List.prefix_refl _, .inl rfl⟩
    · exact .inr ⟨code, rate, [], _, rfl, by rw [if_pos hZero]; rfl, nofun⟩
    · exact .inr ⟨code, rate, [], _, rfl, by rw [if_pos hZero]; rfl, nofun⟩
    · exact .inr ⟨code, rate, later, _, rfl, by rw [if_pos hZero]; rfl,
        hNext.asks (keepsRate_readInUse path)⟩
  · rename_i hOn
    exact .inr ⟨code, rate, later, _, rfl, by rw [if_neg hOn]; rfl,
      hNext.asks (keepsRate_readInUse path)⟩

theorem rateCalls_signal {config : Config} {x : Option (Except Error Signal)}
    (h : Course (signal path config) asked told x) :
    rateCalls asked = [] ∨ rateCalls asked = [setupQuery path config.signalRefresh] := by
  have hReads : rateCalls [stateQuery path, rateQuery path] = [] := rfl
  rcases course_signal h with ⟨hPrefix, -⟩ | ⟨code, rate, later, more, -, rfl, hLater⟩
  · exact .inl (List.prefix_nil.mp (hReads ▸ hPrefix.filter _))
  · rw [rateCalls_cons_of_not (q := stateQuery path) not_false,
      rateCalls_cons_of_not (q := rateQuery path) not_false]
    split
    · exact .inr ((rateCalls_cons (setsRate_setupQuery _ _) later).trans
        (congrArg _ (rateCalls_of_none hLater)))
    · exact .inl (rateCalls_of_none hLater)

/-- The rate is set once, before signals are asked for. -/
theorem course_watchSignal {interval : Nat} {x : Option (Except Error Watch)}
    (h : Course (watchSignal path interval) asked told x) :
    let whole := [stateQuery path, setupQuery path interval,
      .subscribe (.changes .modemManager path)]
    asked <+: whole ∧ ∀ watch, x = some (.ok watch) → asked = whole := by
  have hWatch : watchSignal path interval =
      (require path (.atLeast .registered) "observe signal quality").bind fun _ =>
        (Program.connection.bind fun _ => Request.asking (setupQuery path interval) .nothing .bus
          ).bind fun _ =>
            (Program.connection.bind fun _ =>
              Request.asking (.subscribe (.changes .modemManager path)) (.single .boolean) .bus
                ).bind fun heard => .done (.ofChanges
                  (if heard then some (.changes .modemManager path) else none) Interface.signal
                  (onSignalChange path)) := by
    simp only [watchSignal, Request.subscribe, Program.bind_eq, Program.bind_assoc]
    rfl
  intro whole
  rw [hWatch] at h
  rcases course_require_bind h with ⟨hState, -, hFailed⟩ | ⟨code, later, more, rfl, rfl, hRest⟩
  · exact ⟨hState.trans (List.prefix_append [_] [_, _]),
      fun watch hDone => absurd hDone (hFailed _)⟩
  rcases course_linked_asking_bind_cases hRest with
    ⟨hSetup, -, -, hFailed⟩ | ⟨-, -, later, more, rfl, rfl, -, hSet⟩
  · refine ⟨List.cons_prefix_cons.mpr ⟨rfl, ?_⟩, fun watch hDone => absurd hDone (hFailed _)⟩
    exact hSetup.trans (List.prefix_append [_] [_])
  rcases course_linked_asking_bind_cases hSet with
    ⟨hSubscribe, -, -, hFailed⟩ | ⟨-, heard, later, more, rfl, rfl, -, hHeard⟩
  · refine ⟨?_, fun watch hDone => absurd hDone (hFailed _)⟩
    exact List.cons_prefix_cons.mpr ⟨rfl, List.cons_prefix_cons.mpr ⟨rfl, hSubscribe⟩⟩
  · obtain ⟨rfl, rfl, -⟩ := course_done_iff.mp hHeard
    exact ⟨List.prefix_refl _, fun _ _ => rfl⟩

theorem rateCalls_watchSignal {interval : Nat} {x : Option (Except Error Watch)}
    (h : Course (watchSignal path interval) asked told x) :
    rateCalls asked = [] ∨ rateCalls asked = [setupQuery path interval] := by
  have hOne : rateCalls [stateQuery path, setupQuery path interval,
      .subscribe (.changes .modemManager path)] = [setupQuery path interval] := rfl
  have hPrefix : rateCalls asked <+: [setupQuery path interval] :=
    hOne ▸ (course_watchSignal h).1.filter _
  rcases List.prefix_cons_iff.mp hPrefix with hNone | ⟨rest, hRest, hLast⟩
  · exact .inl hNone
  · exact .inr (List.prefix_nil.mp hLast ▸ hRest)

end Modem

end ModemLink
