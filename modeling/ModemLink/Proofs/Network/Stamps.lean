import ModemLink.Network.Time
import ModemLink.Proofs.Network.Days
import ModemLink.Proofs.Program.Courses
import ModemLink.Proofs.Radio.Numerals
import ModemLink.Remote.Modem
import Mathlib.Data.List.TakeWhile
import Mathlib.Data.String.Basic

/-!
# Texts of the network time

The network writes the time in nineteen characters of one byte, each number with all its digits, and
may write more after them. What is read of such a text is the date and time that were written.

* `NetworkTime.padded`, `Reading.text`: numbers and times as they are written.
* `NetworkTime.takeBytes_eq_some_iff`: what is read of a text at all.
* `NetworkTime.reading?_stamp`: what was written is read.
* `NetworkTime.network_time_exact`: the seconds that any text tells.
-/

namespace ModemLink.NetworkTime

open Calendar (Date)

/-! ## Numbers -/

/-- The last digits of a number, as many as the width. -/
def padded : Nat → Nat → List Char
  | 0, _ => []
  | width + 1, n => padded width (n / 10) ++ [(n % 10).digitChar]

theorem length_padded (width n : Nat) : (padded width n).length = width := by
  induction width generalizing n with
  | zero => rfl
  | succ width ih => simp [padded, ih]

/-- The characters that numbers are written in are read as digits and as nothing else. -/
theorem digitChar_table : ∀ d < 10, Text.decimal? d.digitChar = some d ∧
    Text.isBlank d.digitChar = false ∧ d.digitChar ≠ '-' ∧ d.digitChar ≠ '+' ∧
    d.digitChar.utf8Size = 1 := by
  decide

theorem exists_digit {width n : Nat} {c : Char} (h : c ∈ padded width n) :
    ∃ d < 10, c = d.digitChar := by
  induction width generalizing n with
  | zero => cases h
  | succ width ih =>
    rcases List.mem_append.mp h with hFirst | hLast
    · exact ih hFirst
    · exact ⟨n % 10, Nat.mod_lt _ (by decide), List.mem_singleton.mp hLast⟩

theorem isDecimal_of_mem {width n : Nat} {c : Char} (h : c ∈ padded width n) :
    Text.isDecimal c = true := by
  obtain ⟨d, hd, rfl⟩ := exists_digit h
  rw [Text.isDecimal, (digitChar_table d hd).1]
  rfl

theorem utf8Len_padded (width n : Nat) : String.utf8Len (padded width n) = width := by
  induction width generalizing n with
  | zero => rfl
  | succ width ih =>
    have hDigit := (digitChar_table (n % 10) (Nat.mod_lt _ (by decide))).2.2.2.2
    simp [padded, ih, hDigit]

theorem decimalNumber_padded {width n : Nat} (h : n < 10 ^ width) :
    Text.decimalNumber (padded width n) = n := by
  induction width generalizing n with
  | zero => exact (Nat.lt_one_iff.mp h).symm
  | succ width ih =>
    have hFirst := ih (n := n / 10) (Nat.div_lt_of_lt_mul (by rwa [Nat.mul_comm, ← Nat.pow_succ]))
    have hDigit := (digitChar_table (n % 10) (Nat.mod_lt _ (by decide))).1
    rw [Text.decimalNumber] at hFirst ⊢
    rw [padded, List.filterMap_append, List.filterMap_cons, hDigit, List.filterMap_nil,
      Hex.number_concat, hFirst]
    omega

theorem digits_padded {width n : Nat} (hWidth : 0 < width) (h : n < 10 ^ width)
    (rest : List Char) : digits width (padded width n ++ rest) = some (n, rest) := by
  have hTaken : ((padded width n ++ rest).take width).takeWhile Text.isDecimal =
      padded width n := by
    rw [List.take_left' (length_padded width n)]
    exact List.takeWhile_eq_self_iff.mpr fun c hc => isDecimal_of_mem hc
  have hSome : (padded width n).isEmpty = false := by
    rw [List.isEmpty_eq_false_iff, ← List.length_pos_iff, length_padded]
    exact hWidth
  simp only [digits, hTaken, hSome, Bool.false_eq_true, if_false, decimalNumber_padded h,
    List.drop_left]

/-- A number begins with a digit. -/
theorem exists_padded_eq_cons {width : Nat} (hWidth : 0 < width) (n : Nat) (rest : List Char) :
    ∃ d < 10, ∃ more, padded width n ++ rest = d.digitChar :: more := by
  cases hNumber : padded width n with
  | nil =>
    have hLength := length_padded width n
    rw [hNumber] at hLength
    exact absurd hLength (Nat.ne_of_lt hWidth)
  | cons c more =>
    obtain ⟨d, hd, rfl⟩ := exists_digit (hNumber ▸ List.mem_cons_self : c ∈ padded width n)
    exact ⟨d, hd, more ++ rest, rfl⟩

theorem trimStart_padded {width : Nat} (hWidth : 0 < width) (n : Nat) (rest : List Char) :
    Text.trimStart (padded width n ++ rest) = padded width n ++ rest := by
  obtain ⟨d, hd, more, hCons⟩ := exists_padded_eq_cons hWidth n rest
  rw [hCons]
  exact List.dropWhile_cons_of_neg (by simp [(digitChar_table d hd).2.1])

theorem shortNumber_padded {n : Nat} (h : n < 100) (rest : List Char) :
    shortNumber (padded 2 n ++ rest) = some (n, rest) := by
  rw [shortNumber, trimStart_padded (by decide), digits_padded (by decide) h]

theorem year_padded {n : Nat} (h : n < 10000) (rest : List Char) :
    year (padded 4 n ++ rest) = some ((n : Int), rest) := by
  have hDigits := digits_padded (by decide : 0 < 4) h rest
  have hTrim := trimStart_padded (by decide : 0 < 4) n rest
  obtain ⟨d, hd, more, hCons⟩ := exists_padded_eq_cons (by decide : 0 < 4) n rest
  obtain ⟨-, -, hMinus, hPlus, -⟩ := digitChar_table d hd
  rw [hCons] at hDigits hTrim ⊢
  unfold year
  rw [hTrim]
  split
  · rename_i heq
    exact absurd (List.cons.inj heq).1 hMinus
  · rename_i heq
    exact absurd (List.cons.inj heq).1 hPlus
  · rw [hDigits]
    rfl

/-! ## Dates and times -/

namespace Reading

/-- The date and time as they are written. -/
def stamp (r : Reading) : List Char :=
  padded 4 r.date.year.toNat ++ '-' :: (padded 2 r.date.month ++ '-' :: (padded 2 r.date.day ++
    'T' :: (padded 2 r.hour ++ ':' :: (padded 2 r.minute ++ ':' :: padded 2 r.second))))

/-- The date and time as a text. -/
def text (r : Reading) : String := String.ofList r.stamp

example : text ⟨⟨476, 9, 4⟩, 7, 5, 0⟩ = "0476-09-04T07:05:00" := by decide

/-- All numbers have room in the text. -/
structure Fits (r : Reading) : Prop where
  year : 0 ≤ r.date.year ∧ r.date.year ≤ 9999
  month : r.date.month ≤ 99
  day : r.date.day ≤ 99
  hour : r.hour ≤ 99
  minute : r.minute ≤ 99
  second : r.second ≤ 99

theorem utf8Len_stamp (r : Reading) : String.utf8Len r.stamp = width := by
  simp only [stamp, String.utf8Len_append, String.utf8Len_cons, utf8Len_padded]
  decide

/-- One date and time comes before another. -/
def Before (r r' : Reading) : Prop :=
  r.date.Before r'.date ∨ r.date = r'.date ∧ (r.hour < r'.hour ∨ r.hour = r'.hour ∧
    (r.minute < r'.minute ∨ r.minute = r'.minute ∧ r.second < r'.second))

/-- The calendar has the date, and a day has the time. It may be that of a leap second. -/
structure Exists (r : Reading) : Prop where
  date : r.date.isValid = true
  hour : r.hour < 24
  minute : r.minute < 60
  second : r.second ≤ 60

theorem Fits.isValid_iff {r : Reading} (h : r.Fits) : r.isValid = true ↔ r.Exists := by
  obtain ⟨hFirst, hLast⟩ := h.year
  simp only [isValid, Bool.and_eq_true, decide_eq_true_eq]
  constructor
  · rintro ⟨⟨⟨⟨⟨hDate, -⟩, -⟩, hHour⟩, hMinute⟩, hSecond⟩
    exact ⟨hDate, by omega, by omega, hSecond⟩
  · rintro ⟨hDate, hHour, hMinute, hSecond⟩
    exact ⟨⟨⟨⟨⟨hDate, by omega⟩, by omega⟩, by omega⟩, by omega⟩, hSecond⟩

theorem epochSeconds_lt {r r' : Reading} (h : r.Exists) (h' : r'.Exists) (hSecond : r.second < 60)
    (hSecond' : r'.second < 60) (hBefore : r.Before r') : r.epochSeconds < r'.epochSeconds := by
  obtain ⟨hDate, hHour, hMinute, -⟩ := h
  obtain ⟨hDate', hHour', hMinute', -⟩ := h'
  unfold epochSeconds
  rcases hBefore with hDays | ⟨hSame, hTime⟩
  · have hLater := Date.epochDay_lt hDate hDate' hDays
    omega
  · rw [hSame]
    omega

end Reading

/-- What was written is read. -/
theorem reading?_stamp {r : Reading} (h : r.Fits) : reading? r.stamp = some r := by
  obtain ⟨⟨hFirst, hLast⟩, hMonth, hDay, hHour, hMinute, hSecond⟩ := h
  have hYear : ((r.date.year.toNat : Nat) : Int) = r.date.year := Int.toNat_of_nonneg hFirst
  have hEnd := shortNumber_padded (Nat.lt_succ_of_le hSecond) []
  rw [List.append_nil] at hEnd
  simp only [reading?, Reading.stamp, year_padded (by omega : r.date.year.toNat < 10000), expect,
    shortNumber_padded (Nat.lt_succ_of_le hMonth), shortNumber_padded (Nat.lt_succ_of_le hDay),
    shortNumber_padded (Nat.lt_succ_of_le hHour), shortNumber_padded (Nat.lt_succ_of_le hMinute),
    hEnd, hYear, Option.bind_eq_bind, Option.bind_some, if_true, List.isEmpty_nil]
  rfl

/-! ## Bytes -/

theorem takeBytes_eq_some_iff {s p : List Char} {n : Nat} :
    takeBytes s n = some p ↔ ∃ rest, s = p ++ rest ∧ String.utf8Len p = n := by
  fun_induction takeBytes s n generalizing p with
  | case1 s =>
    simp only [Option.some.injEq, String.utf8Len_eq_zero]
    constructor
    · rintro rfl
      exact ⟨s, rfl, rfl⟩
    · rintro ⟨rest, -, rfl⟩
      rfl
  | case2 n =>
    refine ⟨nofun, ?_⟩
    rintro ⟨rest, hNil, hLength⟩
    rw [(List.append_eq_nil_iff.mp hNil.symm).1] at hLength
    cases hLength
  | case3 c s n hFits ih =>
    simp only [Option.map_eq_some_iff, ih]
    constructor
    · rintro ⟨p, ⟨rest, rfl, hLength⟩, rfl⟩
      exact ⟨rest, rfl, by rw [String.utf8Len_cons]; omega⟩
    · rintro ⟨rest, hCons, hLength⟩
      cases p with
      | nil => cases hLength
      | cons first p =>
        obtain ⟨rfl, rfl⟩ := List.cons.inj hCons
        rw [String.utf8Len_cons] at hLength
        exact ⟨p, ⟨rest, rfl, by omega⟩, rfl⟩
  | case4 c s n hWide =>
    refine ⟨nofun, ?_⟩
    rintro ⟨rest, hCons, hLength⟩
    cases p with
    | nil => cases hLength
    | cons first p =>
      obtain ⟨rfl, rfl⟩ := List.cons.inj hCons
      rw [String.utf8Len_cons] at hLength
      omega

theorem utf8ByteSize_eq (s : String) : s.utf8ByteSize = String.utf8Len s.toList := by
  rw [← String.utf8ByteSize_ofList, String.ofList_toList]

/-- The bytes end within a character, or before there are enough. -/
def Cut (s : List Char) (n : Nat) : Prop :=
  String.utf8Len s < n ∨ ∃ before c after, s = before ++ c :: after ∧
    String.utf8Len before < n ∧ n < String.utf8Len before + c.utf8Size

theorem takeBytes_of_cut {s : List Char} {n : Nat} (h : Cut s n) : takeBytes s n = none := by
  rw [Option.eq_none_iff_forall_ne_some]
  intro p hTaken
  obtain ⟨rest, hAll, hLength⟩ := takeBytes_eq_some_iff.mp hTaken
  rcases h with hShort | ⟨before, c, after, hCrossing, hStart, hEnd⟩
  · rw [hAll, String.utf8Len_append] at hShort
    omega
  · rw [hAll, List.append_eq_append_iff] at hCrossing
    rcases hCrossing with ⟨between, rfl, -⟩ | ⟨between, rfl, hNext⟩
    · rw [String.utf8Len_append] at hStart
      omega
    · cases between with
      | nil =>
        rw [List.append_nil] at hLength
        omega
      | cons first between =>
        obtain ⟨rfl, -⟩ := List.cons.inj hNext
        rw [String.utf8Len_append, String.utf8Len_cons] at hLength
        omega

/-! ## Seconds -/

theorem epochSeconds_of_cut {time : String} (h : Cut time.toList width) :
    epochSeconds time = .error (.invalidNetworkTime time) := by
  rw [epochSeconds, takeBytes_of_cut h]
  rfl

/-- Nothing that stands after the date and time matters, unless they are refused. -/
theorem epochSeconds_text {r : Reading} (h : r.Fits) (suffix : String) :
    epochSeconds (r.text ++ suffix) =
      if r.isValid then .ok r.epochSeconds
      else .error (.invalidNetworkTime (r.text ++ suffix)) := by
  have hTaken : takeBytes (r.text ++ suffix).toList width = some r.stamp :=
    takeBytes_eq_some_iff.mpr ⟨suffix.toList, by simp [Reading.text], r.utf8Len_stamp⟩
  rw [epochSeconds, hTaken, Option.bind_some, reading?_stamp h]

theorem epochSeconds_of_exists {r : Reading} (h : r.Fits) (hExists : r.Exists) (suffix : String) :
    epochSeconds (r.text ++ suffix) = .ok r.epochSeconds := by
  rw [epochSeconds_text h, if_pos (h.isValid_iff.mpr hExists)]

theorem ok_or_invalid (time : String) :
    (∃ t, epochSeconds time = .ok t) ∨ epochSeconds time = .error (.invalidNetworkTime time) := by
  unfold epochSeconds
  split
  · split
    · exact .inl ⟨_, rfl⟩
    · exact .inr rfl
  · exact .inr rfl

/-- A modem's time is asked for, and its seconds are what the text tells. -/
theorem run_networkTimeEpoch {σ : Type} (path : String) (answer : σ → Bus.Query → Bus.Reply × σ)
    (linked : Bool) (s : σ) :
    (Modem.networkTimeEpoch path).run answer linked s =
      let told := (Modem.networkTime path).run answer linked s
      ⟨told.result.bind epochSeconds, told.state, told.trace⟩ :=
  Program.run_bind_ofExcept (Modem.networkTime path) epochSeconds answer linked s

/-- **The seconds of the network time are exact.** A date and a time of day are written in nineteen
bytes. If they exist the text tells the seconds from the beginning of 1970 to them, whatever stands
after them; a day has 86400 of them and the days are counted by the calendar, and second 60 counts
as second 59. So a later time has a greater number. If they do not exist the whole text is refused,
and so is a text that ends within the first nineteen bytes or has a character that begins within
them and ends after them. Every text has a number or is so refused, and a modem that is asked for
the seconds asks for the text and tells its number. -/
theorem network_time_exact :
    (∀ r : Reading, r.Fits → r.text.utf8ByteSize = 19 ∧ ∀ suffix,
      (r.Exists → ∃ days, Date.epoch.DaysTo r.date days ∧ epochSeconds (r.text ++ suffix) =
        .ok (86400 * days + (3600 * r.hour + 60 * r.minute + min r.second 59 : Nat))) ∧
      (¬ r.Exists →
        epochSeconds (r.text ++ suffix) = .error (.invalidNetworkTime (r.text ++ suffix)))) ∧
    (∀ r r' : Reading, r.Fits → r'.Fits → r.Exists → r'.Exists → r.second < 60 →
      r'.second < 60 → r.Before r' → ∀ suffix suffix', ∃ t t',
        epochSeconds (r.text ++ suffix) = .ok t ∧ epochSeconds (r'.text ++ suffix') = .ok t' ∧
          t < t') ∧
    (∀ time, time.utf8ByteSize < 19 →
      epochSeconds time = .error (.invalidNetworkTime time)) ∧
    (∀ (before : String) (c : Char) (after : String), before.utf8ByteSize < 19 →
      19 < before.utf8ByteSize + c.utf8Size →
        let time := before ++ String.singleton c ++ after
        epochSeconds time = .error (.invalidNetworkTime time)) ∧
    (∀ time, (∃ t, epochSeconds time = .ok t) ∨
      epochSeconds time = .error (.invalidNetworkTime time)) ∧
    ∀ {σ : Type} path (answer : σ → Bus.Query → Bus.Reply × σ) linked s,
      (Modem.networkTimeEpoch path).run answer linked s =
        let told := (Modem.networkTime path).run answer linked s
        ⟨told.result.bind epochSeconds, told.state, told.trace⟩ := by
  refine ⟨fun r hFits => ⟨?_, fun suffix => ⟨fun hExists => ?_, fun hNone => ?_⟩⟩, ?_,
    fun time hShort => epochSeconds_of_cut (.inl ?_), fun before c after hStart hEnd =>
      epochSeconds_of_cut (.inr ⟨before.toList, c, after.toList, ?_, ?_, ?_⟩),
    ok_or_invalid, fun path answer linked s => run_networkTimeEpoch path answer linked s⟩
  · exact (String.utf8ByteSize_ofList _).trans r.utf8Len_stamp
  · exact ⟨_, Date.daysTo_epochDay hExists.date, epochSeconds_of_exists hFits hExists suffix⟩
  · rw [epochSeconds_text hFits, if_neg fun hValid => hNone (hFits.isValid_iff.mp hValid)]
  · intro r r' hFits hFits' hExists hExists' hSecond hSecond' hBefore suffix suffix'
    exact ⟨_, _, epochSeconds_of_exists hFits hExists suffix,
      epochSeconds_of_exists hFits' hExists' suffix',
      Reading.epochSeconds_lt hExists hExists' hSecond hSecond' hBefore⟩
  · rwa [← utf8ByteSize_eq]
  · simp
  · rwa [← utf8ByteSize_eq]
  · rwa [← utf8ByteSize_eq]

/-- The last second of the first February of a century without a leap day, with a zone after it, and
a text that is cut within a character. -/
theorem network_time_exact_before_march :
    epochSeconds "1900-02-28T23:59:59+05:30" = .ok (-2203891201) ∧
      epochSeconds "1900-02-29T00:00:00Z" = .error (.invalidNetworkTime "1900-02-29T00:00:00Z") ∧
      epochSeconds "2024-01-01T00:00:0é" = .error (.invalidNetworkTime "2024-01-01T00:00:0é") := by
  obtain ⟨hWritten, -, -, hCrossing, -⟩ := network_time_exact
  have hLast : Reading.Fits ⟨⟨1900, 2, 28⟩, 23, 59, 59⟩ := by constructor <;> decide
  have hNone : Reading.Fits ⟨⟨1900, 2, 29⟩, 0, 0, 0⟩ := by constructor <;> decide
  refine ⟨?_, ?_, hCrossing "2024-01-01T00:00:0" 'é' "" (by decide) (by decide)⟩
  · obtain ⟨days, hDays, hSeconds⟩ := ((hWritten _ hLast).2 "+05:30").1 (by constructor <;> decide)
    rw [Date.daysTo_iff (by decide) (by decide)] at hDays
    rw [hDays] at hSeconds
    exact hSeconds
  · exact ((hWritten _ hNone).2 "Z").2 fun hExists => absurd hExists.date (by decide)

end ModemLink.NetworkTime
