import ModemLink.Network.Calendar

/-!
# Days of the calendar

The calendar goes from day to day: to the next day of the month, to the first of the next month, or
to the first of January. What a date says of its distance from 1 January 1970 is the number of such
steps.

* `Date.next`, `Date.later`: the day after a date, and the day some days after it.
* `Date.epochDay_next`: each step counts one.
* `Date.epochDay_lt`: the distance grows along the order of the calendar.
* `Date.daysTo_iff`: the distance of two dates is the number of days between them.
-/

namespace ModemLink.Calendar

/-! ## Years -/

/-- The number of days of a year. -/
def yearLength (year : Int) : Nat := if isLeap year then 366 else 365

theorem isLeap_iff {year : Int} :
    isLeap year = true ↔ year % 4 = 0 ∧ (year % 100 ≠ 0 ∨ year % 400 = 0) := by
  simp [isLeap]

theorem daysBeforeYear_succ (year : Int) :
    daysBeforeYear (year + 1) = daysBeforeYear year + yearLength year := by
  unfold daysBeforeYear yearLength
  split
  · rename_i hLeap
    rw [isLeap_iff] at hLeap
    omega
  · rename_i hCommon
    rw [isLeap_iff] at hCommon
    omega

theorem daysBeforeYear_mono {year year' : Int} (h : year ≤ year') :
    daysBeforeYear year ≤ daysBeforeYear year' := by
  unfold daysBeforeYear
  omega

/-! ## Months -/

theorem monthLength_pos (year : Int) (month : Nat) : 0 < monthLength year month := by
  unfold monthLength
  split
  · split <;> decide
  all_goals decide

theorem daysBeforeMonth_succ (year : Int) {month : Nat} (h : 1 ≤ month) :
    daysBeforeMonth year (month + 1) = daysBeforeMonth year month + monthLength year month := by
  cases month with
  | zero => cases h
  | succ month => rfl

theorem daysBeforeMonth_mono (year : Int) {month month' : Nat} (h : month ≤ month') :
    daysBeforeMonth year month ≤ daysBeforeMonth year month' := by
  induction h with
  | refl => exact Nat.le_refl _
  | @step last _ ih =>
    refine Nat.le_trans ih ?_
    cases last with
    | zero => exact Nat.le_refl _
    | succ last => exact Nat.le_add_right _ _

/-- After the twelfth month the year is over. -/
theorem daysBeforeMonth_thirteen (year : Int) : daysBeforeMonth year 13 = yearLength year := by
  unfold yearLength
  simp only [daysBeforeMonth, monthLength]
  split <;> rfl

namespace Date

theorem isValid_iff {d : Date} :
    d.isValid = true ↔
      (1 ≤ d.month ∧ d.month ≤ 12) ∧ 1 ≤ d.day ∧ d.day ≤ monthLength d.year d.month := by
  simp [isValid, and_assoc]

/-! ## From day to day -/

/-- The day after. -/
def next (d : Date) : Date :=
  if d.day < monthLength d.year d.month then ⟨d.year, d.month, d.day + 1⟩
  else if d.month < 12 then ⟨d.year, d.month + 1, 1⟩
  else ⟨d.year + 1, 1, 1⟩

/-- The day some days after. -/
def later (d : Date) : Nat → Date
  | 0 => d
  | n + 1 => (d.later n).next

theorem isValid_next {d : Date} (h : d.isValid = true) : d.next.isValid = true := by
  rw [isValid_iff] at h ⊢
  obtain ⟨⟨hFirst, hLast⟩, -, hDay⟩ := h
  unfold next
  split
  · exact ⟨⟨hFirst, hLast⟩, Nat.le_add_left _ _, by assumption⟩
  · split
    · exact ⟨⟨Nat.le_add_left _ _, by assumption⟩, Nat.le_refl _, monthLength_pos _ _⟩
    · exact ⟨⟨Nat.le_refl _, Nat.le_add_left 1 11⟩, Nat.le_refl _, monthLength_pos _ _⟩

theorem epochDay_next {d : Date} (h : d.isValid = true) : d.next.epochDay = d.epochDay + 1 := by
  obtain ⟨⟨hFirst, hLast⟩, -, hDay⟩ := isValid_iff.mp h
  have hMonth := daysBeforeMonth_succ d.year hFirst
  unfold next epochDay
  split
  · push_cast
    omega
  · rename_i hLastDay
    split
    · dsimp only
      rw [hMonth]
      omega
    · have hDecember : d.month = 12 := by omega
      have hYear := daysBeforeYear_succ d.year
      have hJanuary : daysBeforeMonth (d.year + 1) 1 = 0 := rfl
      rw [hDecember, daysBeforeMonth_thirteen] at hMonth
      rw [hDecember] at hDay hLastDay ⊢
      dsimp only
      rw [hYear, hJanuary]
      omega

theorem isValid_later {d : Date} (h : d.isValid = true) (n : Nat) :
    (d.later n).isValid = true := by
  induction n with
  | zero => exact h
  | succ n ih => exact isValid_next ih

theorem epochDay_later {d : Date} (h : d.isValid = true) (n : Nat) :
    (d.later n).epochDay = d.epochDay + n := by
  induction n with
  | zero => exact (Int.add_zero _).symm
  | succ n ih =>
    rw [later, epochDay_next (isValid_later h n), ih]
    push_cast
    omega

/-! ## Order -/

/-- One date comes before another: by the year, then the month, then the day. -/
def Before (d e : Date) : Prop :=
  d.year < e.year ∨
    d.year = e.year ∧ (d.month < e.month ∨ d.month = e.month ∧ d.day < e.day)

instance (d e : Date) : Decidable (d.Before e) :=
  inferInstanceAs (Decidable (d.year < e.year ∨
    d.year = e.year ∧ (d.month < e.month ∨ d.month = e.month ∧ d.day < e.day)))

theorem before_or_eq_or_before (d e : Date) : d.Before e ∨ d = e ∨ e.Before d := by
  obtain ⟨year, month, day⟩ := d
  obtain ⟨year', month', day'⟩ := e
  simp only [Before, mk.injEq]
  omega

theorem epochDay_lt {d e : Date} (hd : d.isValid = true) (he : e.isValid = true)
    (h : d.Before e) : d.epochDay < e.epochDay := by
  obtain ⟨⟨hFirst, hLast⟩, hStart, hEnd⟩ := isValid_iff.mp hd
  obtain ⟨⟨hFirst', -⟩, hStart', -⟩ := isValid_iff.mp he
  have hMonth := daysBeforeMonth_succ d.year hFirst
  rcases h with hYear | ⟨hYear, hMonths | ⟨hMonths, hDay⟩⟩
  · -- The year of `d` is over when that of `e` begins.
    have hYears : daysBeforeYear d.year + yearLength d.year ≤ daysBeforeYear e.year :=
      daysBeforeYear_succ d.year ▸ daysBeforeYear_mono hYear
    have hRest : daysBeforeMonth d.year (d.month + 1) ≤ daysBeforeMonth d.year 13 :=
      daysBeforeMonth_mono d.year (Nat.succ_le_succ hLast)
    rw [daysBeforeMonth_thirteen] at hRest
    unfold epochDay
    omega
  · have hRest : daysBeforeMonth d.year (d.month + 1) ≤ daysBeforeMonth d.year e.month :=
      daysBeforeMonth_mono d.year hMonths
    unfold epochDay
    rw [← hYear]
    omega
  · unfold epochDay
    rw [← hYear, ← hMonths]
    omega

theorem eq_of_epochDay {d e : Date} (hd : d.isValid = true) (he : e.isValid = true)
    (h : d.epochDay = e.epochDay) : d = e := by
  rcases before_or_eq_or_before d e with hBefore | rfl | hAfter
  · exact absurd h (Int.ne_of_lt (epochDay_lt hd he hBefore))
  · rfl
  · exact absurd h.symm (Int.ne_of_lt (epochDay_lt he hd hAfter))

/-! ## Distances -/

/-- It is `n` days from `d` to `e`, or `-n` days from `e` to `d`. -/
def DaysTo (d e : Date) (n : Int) : Prop :=
  ∃ k : Nat, (d.later k = e ∧ n = k) ∨ (e.later k = d ∧ n = -k)

/-- The distance of two dates is the number of days between them. -/
theorem daysTo_iff {d e : Date} (hd : d.isValid = true) (he : e.isValid = true) {n : Int} :
    d.DaysTo e n ↔ n = e.epochDay - d.epochDay := by
  constructor
  · rintro ⟨k, ⟨rfl, rfl⟩ | ⟨rfl, rfl⟩⟩
    · rw [epochDay_later hd]
      omega
    · rw [epochDay_later he]
      omega
  · rintro rfl
    rcases Int.le_total d.epochDay e.epochDay with hForward | hBack
    · obtain ⟨k, hk⟩ := Int.le.dest hForward
      refine ⟨k, .inl ⟨eq_of_epochDay (isValid_later hd k) he ?_, by omega⟩⟩
      rw [epochDay_later hd, hk]
    · obtain ⟨k, hk⟩ := Int.le.dest hBack
      refine ⟨k, .inr ⟨eq_of_epochDay (isValid_later he k) hd ?_, by omega⟩⟩
      rw [epochDay_later he, hk]

/-- The first of January 1970. -/
def epoch : Date := ⟨1970, 1, 1⟩

/-- The days since the first of January 1970. -/
theorem daysTo_epochDay {d : Date} (h : d.isValid = true) : epoch.DaysTo d d.epochDay :=
  (daysTo_iff (by decide) h).mpr (Int.sub_zero _).symm

example : (⟨1900, 2, 28⟩ : Date).next = ⟨1900, 3, 1⟩ := by decide

example : (⟨2000, 2, 28⟩ : Date).next = ⟨2000, 2, 29⟩ := by decide

end Date

end ModemLink.Calendar
