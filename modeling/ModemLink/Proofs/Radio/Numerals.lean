import Mathlib.Data.List.Induction
import ModemLink.Proofs.Text.Parts
import ModemLink.Radio.Hex

/-!
# Hexadecimal numerals

Which texts are hexadecimal numbers, and which number each of them is. A digit may be written in
either case and zeros may stand before it, so a number has many numerals and a numeral one number.

* `IsDigit`, `Numeral`, `Denotes`: the grammar, and `parse?_eq_some_iff`: what is read is what it
  says.
* `exists_numeral_iff`, `Numeral.unique`: what is a numeral, and of how many numbers.
* `spelled`: the numerals of a number; `denotes_spelled` says that each of them denotes it.
-/

namespace ModemLink.Hex

/-! ## The grammar -/

/-- A character is the digit of base sixteen for a number. -/
def IsDigit (c : Char) (d : Nat) : Prop :=
  "0123456789abcdef".toList[d]? = some c ∨ "0123456789ABCDEF".toList[d]? = some c

instance (c : Char) (d : Nat) : Decidable (IsDigit c d) := inferInstanceAs (Decidable (_ ∨ _))

/-- A text of digits, at least one, with the number that it denotes in base sixteen. -/
inductive Numeral : List Char → Nat → Prop
  | digit {c : Char} {d : Nat} (hc : IsDigit c d) : Numeral [c] d
  | snoc {s : List Char} {n : Nat} {c : Char} {d : Nat} (hs : Numeral s n) (hc : IsDigit c d) :
    Numeral (s ++ [c]) (16 * n + d)

/-- A text is a numeral of a number of 32 bits, perhaps after one plus sign. -/
def Denotes (s : List Char) (n : UInt32) : Prop :=
  ∃ digits, (s = digits ∨ s = '+' :: digits) ∧ Numeral digits n.toNat

/-- A text is a numeral of a number that has no room in 32 bits. -/
def Overflows (s : List Char) : Prop := ∃ n, Numeral s n ∧ UInt32.size ≤ n

/-! ## Digits -/

section

variable {c : Char} {d : Nat}

theorem IsDigit.lt (h : IsDigit c d) : d < 16 :=
  h.elim (fun h => (List.getElem?_eq_some_iff.mp h).1) fun h => (List.getElem?_eq_some_iff.mp h).1

/-- What is true of the small and of the capital digit of every number is true of all digits. -/
theorem IsDigit.table {P : Char → Nat → Prop} (hc : IsDigit c d)
    (h : ∀ d < 16, P ("0123456789abcdef".toList.getD d ' ') d ∧
      P ("0123456789ABCDEF".toList.getD d ' ') d) : P c d := by
  obtain ⟨hSmall, hCapital⟩ := h d hc.lt
  rw [List.getD_eq_getElem?_getD] at hSmall hCapital
  rcases hc with hc | hc
  · rwa [hc] at hSmall
  · rwa [hc] at hCapital

theorem IsDigit.toUpper (h : IsDigit c d) : IsDigit c.toUpper d :=
  h.table (P := fun c d => IsDigit c.toUpper d) (by decide)

/-- A digit is no blank and none of the signs that stand beside numbers. -/
theorem IsDigit.proper (h : IsDigit c d) : Text.isBlank c = false ∧ c ≠ ',' ∧ c ≠ '+' :=
  h.table (P := fun c _ => Text.isBlank c = false ∧ c ≠ ',' ∧ c ≠ '+') (by decide)

theorem isDigit_digitChar (h : d < 16) : IsDigit d.digitChar d := by
  have hTable : ∀ d < 16, IsDigit (Nat.digitChar d) d := by decide
  exact hTable d h

theorem hex?_eq_some_iff : Text.hex? c = some d ↔ IsDigit c d := by
  constructor
  · intro h
    -- No character beyond the last small letter is a digit.
    have hTable : ∀ n ≤ 'f'.toNat, ∀ d ∈ Text.hex? (Char.ofNat n), IsDigit (Char.ofNat n) d := by
      decide
    have hBelow : ∀ {last : Char}, c ≤ last → last ≤ 'f' → c.toNat ≤ 'f'.toNat :=
      fun hc hLast => Nat.le_trans (m := _) hc hLast
    have hLe : c.toNat ≤ 'f'.toNat := by
      unfold Text.hex? at h
      split_ifs at h with hDecimal hLower hUpper
      · exact hBelow hDecimal.2 (by decide)
      · exact hBelow hLower.2 (by decide)
      · exact hBelow hUpper.2 (by decide)
    have hChar := hTable c.toNat hLe
    rw [Char.ofNat_toNat] at hChar
    exact hChar d h
  · exact fun h => h.table (P := fun c d => Text.hex? c = some d) (by decide)

end

/-! ## Numerals -/

theorem number_concat (base d : Nat) (digits : List Nat) :
    Text.number base (digits ++ [d]) = Text.number base digits * base + d := by
  rw [Text.number, List.foldl_append]
  rfl

theorem mapM_concat_eq_some_iff {s : List Char} {c : Char} {digits : List Nat} :
    (s ++ [c]).mapM Text.hex? = some digits ↔
      ∃ first d, s.mapM Text.hex? = some first ∧ IsDigit c d ∧ digits = first ++ [d] := by
  simp only [List.mapM_append, List.mapM_cons, List.mapM_nil, ← hex?_eq_some_iff]
  cases s.mapM Text.hex? <;> cases Text.hex? c <;> simp [eq_comm]

/-- A text is a numeral if all its characters are digits and there is one; its number is the one
that the values of its digits make. -/
theorem numeral_iff {s : List Char} {n : Nat} :
    Numeral s n ↔
      s ≠ [] ∧ ∃ digits, s.mapM Text.hex? = some digits ∧ Text.number 16 digits = n := by
  constructor
  · intro h
    induction h with
    | @digit c d hc =>
      exact ⟨List.cons_ne_nil c [], [d], mapM_concat_eq_some_iff (s := []).mpr
        ⟨[], d, rfl, hc, rfl⟩, by simp [Text.number]⟩
    | @snoc s n c d hs hc ih =>
      obtain ⟨-, digits, hDigits, rfl⟩ := ih
      refine ⟨by simp, digits ++ [d], mapM_concat_eq_some_iff.mpr ⟨digits, d, hDigits, hc, rfl⟩, ?_⟩
      rw [number_concat, Nat.mul_comm]
  · rintro ⟨hs, digits, hDigits, rfl⟩
    induction s using List.reverseRecOn generalizing digits with
    | nil => exact absurd rfl hs
    | append_singleton s c ih =>
      obtain ⟨first, d, hFirst, hc, rfl⟩ := mapM_concat_eq_some_iff.mp hDigits
      rw [number_concat, Nat.mul_comm]
      rcases eq_or_ne s [] with rfl | hs
      · cases hFirst
        simpa [Text.number] using Numeral.digit hc
      · exact .snoc (ih hs first hFirst) hc

theorem Numeral.unique {s : List Char} {m n : Nat} (hm : Numeral s m) (hn : Numeral s n) :
    m = n := by
  obtain ⟨-, digits, hDigits, rfl⟩ := numeral_iff.mp hm
  obtain ⟨-, digits', hDigits', rfl⟩ := numeral_iff.mp hn
  rw [Option.some.inj (hDigits.symm.trans hDigits')]

theorem Numeral.isDigit {s : List Char} {n : Nat} (h : Numeral s n) :
    ∀ c ∈ s, ∃ d, IsDigit c d := by
  induction h with
  | @digit c d hc => exact fun _ h => ⟨d, List.mem_singleton.mp h ▸ hc⟩
  | @snoc s n c d hs hc ih =>
    exact List.forall_mem_append.mpr ⟨ih, fun _ h => ⟨d, List.mem_singleton.mp h ▸ hc⟩⟩

theorem exists_numeral_iff {s : List Char} :
    (∃ n, Numeral s n) ↔ s ≠ [] ∧ ∀ c ∈ s, ∃ d, IsDigit c d := by
  constructor
  · rintro ⟨n, h⟩
    exact ⟨(numeral_iff.mp h).1, h.isDigit⟩
  · rintro ⟨hs, hDigits⟩
    induction s using List.reverseRecOn with
    | nil => exact absurd rfl hs
    | append_singleton s c ih =>
      obtain ⟨hFirst, hLast⟩ := List.forall_mem_append.mp hDigits
      obtain ⟨d, hc⟩ := hLast c List.mem_cons_self
      rcases eq_or_ne s [] with rfl | hs
      · exact ⟨d, .digit hc⟩
      · obtain ⟨n, hn⟩ := ih hs hFirst
        exact ⟨16 * n + d, .snoc hn hc⟩

/-! ## Reading -/

theorem unsigned_of_numeral {s : List Char} {n : Nat} (h : Numeral s n) : unsigned s = s := by
  unfold unsigned
  split
  · obtain ⟨d, hPlus⟩ := h.isDigit '+' List.mem_cons_self
    exact absurd rfl hPlus.proper.2.2
  · rfl

theorem unsigned_eq_iff {s digits : List Char} {n : Nat} (h : Numeral digits n) :
    unsigned s = digits ↔ s = digits ∨ s = '+' :: digits := by
  constructor
  · rintro rfl
    unfold unsigned
    split
    · exact .inr rfl
    · exact .inl rfl
  · rintro (rfl | rfl)
    · exact unsigned_of_numeral h
    · rfl

/-- Without the sign, what is read is the number of the numeral. -/
theorem parse?_eq_some_iff_numeral {s : List Char} {n : UInt32} :
    parse? s = some n ↔ Numeral (unsigned s) n.toNat := by
  rw [numeral_iff, parse?]
  generalize unsigned s = digits
  cases hDigits : digits.mapM Text.hex? with
  | none => simp
  | some values =>
    cases values with
    | nil =>
      -- Only the empty text has no digits, and it is no numeral.
      have hEmpty : digits = [] := by
        rcases List.eq_nil_or_concat digits with h | ⟨first, last, h⟩
        · exact h
        · rw [h, List.concat_eq_append] at hDigits
          obtain ⟨_, _, -, -, hNil⟩ := mapM_concat_eq_some_iff.mp hDigits
          simp at hNil
      simp [hEmpty]
    | cons value values =>
      have hNonempty : digits ≠ [] := by
        rintro rfl
        cases hDigits
      simp only [Option.ite_none_right_eq_some, Option.some.injEq, exists_eq_left', hNonempty,
        ne_eq, not_false_eq_true, true_and]
      constructor
      · rintro ⟨hLt, rfl⟩
        exact (UInt32.toNat_ofNat_of_lt' hLt).symm
      · intro hEq
        rw [hEq]
        exact ⟨n.toNat_lt_size, UInt32.ofNat_toNat⟩

/-- What is read is what the grammar says. -/
theorem parse?_eq_some_iff {s : List Char} {n : UInt32} : parse? s = some n ↔ Denotes s n := by
  rw [parse?_eq_some_iff_numeral]
  constructor
  · exact fun h => ⟨unsigned s, (unsigned_eq_iff h).mp rfl, h⟩
  · rintro ⟨digits, hSign, h⟩
    rwa [(unsigned_eq_iff h).mpr hSign]

theorem denotes_of_numeral {s : List Char} {n : UInt32} (h : Numeral s n.toNat) : Denotes s n :=
  ⟨s, .inl rfl, h⟩

theorem Overflows.not_denotes {s : List Char} (h : Overflows s) (n : UInt32) : ¬ Denotes s n := by
  obtain ⟨m, hm, hLarge⟩ := h
  rw [← parse?_eq_some_iff, parse?_eq_some_iff_numeral, unsigned_of_numeral hm]
  intro hn
  rw [hm.unique hn] at hLarge
  exact absurd n.toNat_lt_size (Nat.not_lt.mpr hLarge)

/-- A text of digits denotes a number of 32 bits unless it is too large. -/
theorem overflows_or_denotes {s : List Char} (hs : s ≠ []) (hDigits : ∀ c ∈ s, ∃ d, IsDigit c d) :
    Overflows s ∨ ∃ n, Denotes s n := by
  obtain ⟨n, hn⟩ := exists_numeral_iff.mpr ⟨hs, hDigits⟩
  by_cases hLt : n < UInt32.size
  · refine .inr ⟨.ofNat n, denotes_of_numeral ?_⟩
    rwa [UInt32.toNat_ofNat_of_lt' hLt]
  · exact .inl ⟨n, hn, Nat.not_lt.mp hLt⟩

/-- The field of a text is read without the blanks around it. -/
theorem read_eq_ok_iff {field value : String} {n : UInt32} :
    read field value = .ok n ↔ ∃ s, Text.Trimmed value.toList s ∧ Denotes s n := by
  simp only [← Text.trim_eq_iff, ← parse?_eq_some_iff, exists_eq_left', read]
  cases parse? (Text.trim value.toList) <;> simp

theorem read_eq_error_iff {field value : String} {e : Error} :
    read field value = .error e ↔
      e = .invalidHex field value ∧ ∀ s n, Text.Trimmed value.toList s → ¬ Denotes s n := by
  unfold read
  cases hParse : parse? (Text.trim value.toList) with
  | none =>
    have hNone : ∀ s n, Text.Trimmed value.toList s → ¬ Denotes s n := by
      intro s n hs hn
      rw [Text.trim_eq_iff.mpr hs, parse?_eq_some_iff.mpr hn] at hParse
      cases hParse
    rw [Except.error.injEq, eq_comm, iff_self_and]
    exact fun _ => hNone
  | some n =>
    have hTrimmed := Text.trim_eq_iff.mp (rfl : Text.trim value.toList = _)
    exact ⟨nofun, fun h => absurd (parse?_eq_some_iff.mp hParse) (h.2 _ n hTrimmed)⟩

theorem isTight_of_isDigit {s : List Char} (h : ∀ c ∈ s, ∃ d, IsDigit c d) : Text.IsTight s :=
  Text.isTight_of_forall fun c hc => (h c hc).elim fun _ hDigit => hDigit.proper.1

theorem read_of_denotes {field value : String} {n : UInt32} (hTight : Text.IsTight value.toList)
    (h : Denotes value.toList n) : read field value = .ok n :=
  read_eq_ok_iff.mpr ⟨value.toList, Text.trimmed_self hTight, h⟩

theorem read_of_overflows {field value : String} (h : Overflows value.toList) :
    read field value = .error (.invalidHex field value) := by
  refine read_eq_error_iff.mpr ⟨rfl, fun s n hs => ?_⟩
  obtain ⟨m, hm, -⟩ := id h
  have hWhole := Text.trim_eq_iff.mpr (Text.trimmed_self (isTight_of_isDigit hm.isDigit))
  obtain rfl : s = value.toList := (Text.trim_eq_iff.mpr hs).symm.trans hWhole
  exact h.not_denotes n

/-! ## Writing -/

/-- A way to write numbers: how many zeros stand before the digits, and which of all these
characters are capitals. -/
structure Style where
  zeros : Nat
  capital : Nat → Bool

/-- A number in digits of base sixteen. -/
def spelled (style : Style) (n : UInt32) : String :=
  .ofList ((List.replicate style.zeros '0' ++ Nat.toDigits 16 n.toNat).mapIdx fun i c =>
    if style.capital i then c.toUpper else c)

theorem numeral_toDigits (n : Nat) : Numeral (Nat.toDigits 16 n) n := by
  induction n using Nat.strongRecOn with
  | ind n ih =>
    rw [Nat.toDigits_eq_if (by decide)]
    split
    next hLt => exact .digit (isDigit_digitChar hLt)
    next hGe =>
      have hLast := isDigit_digitChar (Nat.mod_lt n (by decide : 0 < 16))
      have hFirst := ih (n / 16) (Nat.div_lt_self (by omega) (by decide))
      simpa only [Nat.div_add_mod] using Numeral.snoc hFirst hLast

theorem Numeral.zero_cons {s : List Char} {n : Nat} (h : Numeral s n) : Numeral ('0' :: s) n := by
  induction h with
  | @digit c d hc => simpa using Numeral.snoc (.digit (by decide : IsDigit '0' 0)) hc
  | snoc hs hc ih => exact .snoc ih hc

theorem Numeral.zeros {s : List Char} {n : Nat} (h : Numeral s n) (zeros : Nat) :
    Numeral (List.replicate zeros '0' ++ s) n := by
  induction zeros with
  | zero => exact h
  | succ zeros ih =>
    rw [List.replicate_succ, List.cons_append]
    exact ih.zero_cons

theorem Numeral.capitals {s : List Char} {n : Nat} (h : Numeral s n) (capital : Nat → Bool) :
    Numeral (s.mapIdx fun i c => if capital i then c.toUpper else c) n := by
  have hDigit : ∀ {c d} i, IsDigit c d → IsDigit (if capital i then c.toUpper else c) d := by
    intro c d i hc
    split
    · exact hc.toUpper
    · exact hc
  induction h with
  | digit hc => exact .digit (hDigit 0 hc)
  | snoc hs hc ih =>
    rw [List.mapIdx_concat]
    exact .snoc ih (hDigit _ hc)

/-- A number denotes itself in whatever style it is written. -/
theorem denotes_spelled (style : Style) (n : UInt32) : Denotes (spelled style n).toList n := by
  rw [spelled, String.toList_ofList]
  exact denotes_of_numeral (((numeral_toDigits n.toNat).zeros style.zeros).capitals style.capital)

end ModemLink.Hex
