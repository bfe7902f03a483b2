import Mathlib.Data.List.TakeWhile
import ModemLink.Text.Blank
import ModemLink.Text.Segments

/-!
# Trimmed texts and their parts

What it is to trim a text and to cut it at a separator, told without the functions that do it.

* `Trimmed`, `trim_eq_iff`: a text without the blanks around it.
* `Parts`, `segments_eq_iff`: the parts of a text that are written with a separator between them.
-/

namespace ModemLink.Text

/-! ## Blanks around a text -/

/-- A text neither begins nor ends with a blank. -/
def IsTight (s : List Char) : Prop :=
  (∀ c ∈ s.head?, isBlank c = false) ∧ ∀ c ∈ s.getLast?, isBlank c = false

/-- `s` is `t` with blanks before and after it, and `t` neither begins nor ends with a blank. -/
def Trimmed (s t : List Char) : Prop :=
  ∃ before after, s = before ++ t ++ after ∧ (∀ c ∈ before, isBlank c = true) ∧
    (∀ c ∈ after, isBlank c = true) ∧ IsTight t

theorem isTight_of_forall {s : List Char} (h : ∀ c ∈ s, isBlank c = false) : IsTight s :=
  ⟨fun c hc => h c (List.mem_of_head? hc), fun c hc => h c (List.mem_of_getLast? hc)⟩

theorem trimmed_self {s : List Char} (h : IsTight s) : Trimmed s s :=
  ⟨[], [], by simp, by simp, by simp, h⟩

theorem trimStart_append {before s : List Char} (hBefore : ∀ c ∈ before, isBlank c = true)
    (hHead : ∀ c ∈ s.head?, isBlank c = false) : trimStart (before ++ s) = s := by
  rw [trimStart, List.dropWhile_append_of_pos hBefore]
  cases s with
  | nil => rfl
  | cons c rest => exact List.dropWhile_cons_of_neg (by simp [hHead c rfl])

theorem trimEnd_append {s after : List Char} (hAfter : ∀ c ∈ after, isBlank c = true)
    (hLast : ∀ c ∈ s.getLast?, isBlank c = false) : trimEnd (s ++ after) = s := by
  have hBlank : ∀ c ∈ after.reverse, isBlank c = true := fun c hc =>
    hAfter c (List.mem_reverse.mp hc)
  rw [trimEnd, List.reverse_append, trimStart_append hBlank (by simpa using hLast),
    List.reverse_reverse]

theorem exists_trimStart (s : List Char) :
    ∃ before, s = before ++ trimStart s ∧ (∀ c ∈ before, isBlank c = true) ∧
      ∀ c ∈ (trimStart s).head?, isBlank c = false :=
  ⟨s.takeWhile isBlank, List.takeWhile_append_dropWhile.symm,
    fun _ hc => List.mem_takeWhile_imp hc, fun c hc => by
      have hNot := List.head?_dropWhile_not isBlank s
      rw [show (s.dropWhile isBlank).head? = some c from hc] at hNot
      simpa using hNot⟩

theorem exists_trimEnd (s : List Char) :
    ∃ after, s = trimEnd s ++ after ∧ (∀ c ∈ after, isBlank c = true) ∧
      ∀ c ∈ (trimEnd s).getLast?, isBlank c = false := by
  obtain ⟨before, hSplit, hBlank, hHead⟩ := exists_trimStart s.reverse
  refine ⟨before.reverse, ?_, fun c hc => hBlank c (List.mem_reverse.mp hc), ?_⟩
  · rw [trimEnd, ← List.reverse_append, ← hSplit, List.reverse_reverse]
  · simpa [trimEnd] using hHead

theorem trim_eq_iff {s t : List Char} : trim s = t ↔ Trimmed s t := by
  constructor
  · rintro rfl
    obtain ⟨before, hSplit, hBefore, hHead⟩ := exists_trimStart s
    obtain ⟨after, hRest, hAfter, hLast⟩ := exists_trimEnd (trimStart s)
    refine ⟨before, after, ?_, hBefore, hAfter, ?_, hLast⟩
    · rw [trim, List.append_assoc, ← hRest, ← hSplit]
    · -- What is left of a text that begins with no blank does not begin with one either.
      intro c hc
      refine hHead c ?_
      rw [hRest, List.head?_append, show (trimEnd (trimStart s)).head? = some c from hc]
      rfl
  · rintro ⟨before, after, rfl, hBefore, hAfter, hHead, hLast⟩
    cases t with
    | nil =>
      have hBlank : ∀ c ∈ before ++ after, isBlank c = true :=
        List.forall_mem_append.mpr ⟨hBefore, hAfter⟩
      rw [trim, List.append_nil, ← List.append_nil (before ++ after),
        trimStart_append hBlank (by simp)]
      rfl
    | cons c rest =>
      rw [trim, List.append_assoc, trimStart_append hBefore (by simpa using hHead),
        trimEnd_append hAfter hLast]

/-! ## Parts between separators -/

/-- `s` is the texts of `parts`, at least one, with `sep` between every two of them, and none of
them has `sep` in it. -/
def Parts (sep : Char) (s : List Char) (parts : List (List Char)) : Prop :=
  s = [sep].intercalate parts ∧ parts ≠ [] ∧ ∀ part ∈ parts, sep ∉ part

theorem segments_eq_splitOn (sep : Char) (s : List Char) : segments sep s = s.splitOn sep := by
  induction s with
  | nil => rfl
  | cons c rest ih =>
    obtain ⟨first, more, hRest⟩ := List.exists_cons_of_ne_nil (segments_ne_nil sep rest)
    rw [List.splitOn, List.splitOnP_cons_eq_if_modifyHead, ← List.splitOn, ← ih, hRest]
    by_cases hSep : c = sep
    · rw [hSep, segments_cons_self, hRest, if_pos (beq_self_eq_true sep)]
    · rw [segments_cons_of_ne hSep hRest, if_neg (by simpa using hSep)]
      rfl

theorem not_mem_of_mem_segments {sep : Char} {s part : List Char} (h : part ∈ segments sep s) :
    sep ∉ part := by
  induction s generalizing part with
  | nil => simp_all [segments]
  | cons c rest ih =>
    obtain ⟨first, more, hRest⟩ := List.exists_cons_of_ne_nil (segments_ne_nil sep rest)
    by_cases hSep : c = sep
    · rw [hSep, segments_cons_self] at h
      obtain rfl | h := List.mem_cons.mp h
      · exact List.not_mem_nil
      · exact ih h
    · rw [segments_cons_of_ne hSep hRest] at h
      rw [hRest] at ih
      obtain rfl | h := List.mem_cons.mp h
      · exact List.not_mem_cons_of_ne_of_not_mem (Ne.symm hSep) (ih List.mem_cons_self)
      · exact ih (List.mem_cons_of_mem first h)

theorem segments_eq_iff {sep : Char} {s : List Char} {parts : List (List Char)} :
    segments sep s = parts ↔ Parts sep s parts := by
  constructor
  · rintro rfl
    refine ⟨?_, segments_ne_nil sep s, fun _ => not_mem_of_mem_segments⟩
    rw [segments_eq_splitOn, List.intercalate_splitOn]
  · rintro ⟨rfl, hParts, hFree⟩
    rw [segments_eq_splitOn, List.splitOn_intercalate sep hFree hParts]

end ModemLink.Text
