import ModemLink.Proofs.Property.Reading
import ModemLink.Proofs.Radio.Numerals

/-!
# Hexadecimal fields from one bag to another

A field is the text of a number, perhaps with blanks around it and one plus sign before it. It is
read if the number has room in 32 bits. To be stored in another bag the number must have room there
too, in 32 or in 16 bits. Otherwise the error has the text as it was reported, and the other bag is
left as it was.

* `Hex.Spells`, `Hex.read_eq_ok_iff_spells`, `Hex.read_eq_error_iff_spells`: what is read of a text,
  by the number of any size that it spells.
* `AllOrNothing`: a change in place that leaves the bag alone when it fails.
* `Keeps`: a change in place that keeps one field of the reports.
* `StoresHex`, `storesHex_of_keeps`: what storing a field comes to, whatever there is room for.
* `hex_fields_exact`: reading and storing, for all texts, bags and keys.
-/

namespace ModemLink

namespace Hex

/-! ## Reading -/

/-- A text is, without the blanks around it and perhaps after one plus sign, a numeral of a number
of any size. -/
def Spells (text : String) (n : Nat) : Prop :=
  ∃ s digits, Text.Trimmed text.toList s ∧ (s = digits ∨ s = '+' :: digits) ∧ Numeral digits n

section

variable {text field value : String} {m n : Nat} {e : Error}

theorem spells_iff : Spells text n ↔ Numeral (unsigned (Text.trim text.toList)) n := by
  constructor
  · rintro ⟨s, digits, hTrimmed, hSign, hNumeral⟩
    rwa [Text.trim_eq_iff.mpr hTrimmed, (unsigned_eq_iff hNumeral).mpr hSign]
  · exact fun h => ⟨_, _, Text.trim_eq_iff.mp rfl, (unsigned_eq_iff h).mp rfl, h⟩

theorem Spells.unique (hm : Spells text m) (hn : Spells text n) : m = n :=
  (spells_iff.mp hm).unique (spells_iff.mp hn)

theorem spells_iff_exists_eq :
    Spells text m ↔ ∃ n : Nat, Spells text n ∧ some (m : Int) = some (n : Int) := by
  constructor
  · exact fun h => ⟨m, h, rfl⟩
  · rintro ⟨n, h, hEq⟩
    rwa [Int.ofNat.inj (Option.some.inj hEq)]

/-- What is read is the number that the text spells. -/
theorem read_eq_ok_iff_spells {n : UInt32} :
    read field value = .ok n ↔ Spells value n.toNat := by
  rw [spells_iff, ← parse?_eq_some_iff_numeral, read]
  cases parse? (Text.trim value.toList) <;> simp

/-- A text is refused, as it is, if it spells no number or one beyond 32 bits. -/
theorem read_eq_error_iff_spells :
    read field value = .error e ↔
      e = .invalidHex field value ∧ ∀ n, Spells value n → 2 ^ 32 ≤ n := by
  constructor
  · intro h
    refine ⟨(read_eq_error_iff.mp h).1, fun n hn => Nat.not_lt.mp fun hLt => ?_⟩
    have hRead : read field value = .ok (.ofNat n) :=
      read_eq_ok_iff_spells.mpr (by rwa [UInt32.toNat_ofNat_of_lt' hLt])
    exact nomatch h.symm.trans hRead
  · rintro ⟨rfl, hLarge⟩
    cases hRead : read field value with
    | error e => rw [(read_eq_error_iff.mp hRead).1]
    | ok n => exact absurd n.toNat_lt (Nat.not_lt.mpr (hLarge _ (read_eq_ok_iff_spells.mp hRead)))

end

end Hex

namespace Bag

/-! ## Changes in place -/

/-- A change that fails leaves the bag as it was. -/
def AllOrNothing (change : EStateM Error Bag Unit) : Prop :=
  ∀ target e after, change.run target = .error e after → after = target

namespace AllOrNothing

theorem pure : AllOrNothing (pure ()) := nofun

theorem modify (f : Bag → Bag) : AllOrNothing (modify f) := nofun

theorem throw (e : Error) : AllOrNothing (throw e) := by
  rintro target _ _ ⟨⟩
  rfl

/-- What is read before a change can fail only when nothing has been done. -/
theorem ofExcept_bind {α : Type} {x : Except Error α} {next : α → EStateM Error Bag Unit}
    (h : ∀ a, AllOrNothing (next a)) : AllOrNothing (ofExcept x >>= next) := by
  cases x with
  | ok a => exact h a
  | error e => exact throw e

variable (source : Bag) (key newKey : String)

theorem storeHex : AllOrNothing (source.storeHex key newKey) := by
  refine ofExcept_bind fun value => ?_
  cases value with
  | none => exact pure
  | some text => exact ofExcept_bind fun n => modify _

theorem storeHex16 : AllOrNothing (source.storeHex16 key newKey) := by
  refine ofExcept_bind fun value => ?_
  cases value with
  | none => exact pure
  | some text =>
    refine ofExcept_bind fun n => ?_
    split
    · exact modify _
    · exact throw _

end AllOrNothing

/-- A change keeps a field of the reported properties `raw`, or fails and does nothing. -/
structure Keeps (change : EStateM Error Bag Unit) (f : Field) (raw : Bag) : Prop where
  allOrNothing : AllOrNothing change
  changed : ∀ target : Bag, target.changed change = (f.value raw).map (target.keep f.name)

namespace Keeps

variable {change : EStateM Error Bag Unit} {f : Field} {raw target : Bag} {p q : Property}
  {e : Error}

theorem run_of_value_eq_ok (h : Keeps change f raw) {o : Option Property}
    (hValue : f.value raw = .ok o) : change.run target = .ok () (target.keep f.name o) := by
  have hChanged := h.changed target
  rw [hValue, Bag.changed] at hChanged
  cases hRun : change.run target with
  | ok _ after =>
    rw [hRun] at hChanged
    rw [Except.ok.inj hChanged]
  | error e after =>
    rw [hRun] at hChanged
    cases hChanged

theorem run_of_value_eq_error (h : Keeps change f raw) (hValue : f.value raw = .error e) :
    change.run target = .error e target := by
  have hChanged := h.changed target
  rw [hValue, Bag.changed] at hChanged
  cases hRun : change.run target with
  | ok _ after =>
    rw [hRun] at hChanged
    cases hChanged
  | error e' after =>
    rw [hRun] at hChanged
    rw [Except.error.inj hChanged, h.allOrNothing target e' after hRun]

theorem run_of_find?_eq_none (h : Keeps change f raw) (hFind : raw.find? f.key = none) :
    change.run target = .ok () target :=
  h.run_of_value_eq_ok (Field.value_of_find?_eq_none hFind)

theorem run_of_image_eq_ok (h : Keeps change f raw) (hFind : raw.find? f.key = some p)
    (hImage : f.image p = .ok q) : change.run target = .ok () (target.insert f.name q) := by
  refine h.run_of_value_eq_ok (o := some q) ?_
  rw [Field.value_of_find?_eq_some hFind, hImage]
  rfl

theorem run_of_image_eq_error (h : Keeps change f raw) (hFind : raw.find? f.key = some p)
    (hImage : f.image p = .error e) : change.run target = .error e target := by
  refine h.run_of_value_eq_error ?_
  rw [Field.value_of_find?_eq_some hFind, hImage]
  rfl

end Keeps

/-! ## Storing -/

/-- What it comes to that the hexadecimal field `key` of `source` is stored under `newKey` of
`target` as a number of type `t`. -/
structure StoresHex (t : PropertyType) (source target : Bag) (key newKey : String)
    (outcome : EStateM.Result Error Bag Unit) : Prop where
  absent : source.find? key = none → outcome = .ok () target
  mistyped : ∀ p, source.find? key = some p → p.kind ≠ .string →
    outcome = .error (.typeMismatch key .string p.kind) target
  refused : ∀ text, source.find? key = some (.string text) →
    (∀ n : Nat, Hex.Spells text n → ¬ t.HasRoom n) → outcome = .error (.invalidHex key text) target
  stored : ∀ text (n : Nat), source.find? key = some (.string text) → Hex.Spells text n →
    t.HasRoom n → ∃ after v, outcome = .ok () after ∧ t.number? v = some (n : Int) ∧
      after.get t newKey = .ok v ∧ ∀ other ≠ newKey, after.find? other = target.find? other
  intact : ∀ e after, outcome = .error e after → after = target

namespace Field

variable {key name text : String} {p : Property}

theorem image_ofText_of_ne {image : String → Except Error Property} (h : p.kind ≠ .string) :
    (ofText key name image).image p = .error (.typeMismatch key .string p.kind) := by
  cases p with
  | string s => exact absurd rfl h
  | bool | int | float | path => rfl

theorem meansHex_string_iff {n : UInt32} :
    MeansHex key (.string text) n ↔ Hex.Spells text n.toNat := by
  simp [MeansHex, Hex.read_eq_ok_iff_spells]

theorem meansHex16_string_iff {n : UInt16} :
    MeansHex16 key (.string text) n ↔ Hex.Spells text n.toNat := by
  rw [MeansHex16, meansHex_string_iff, UInt16.toNat_toUInt32]

end Field

/-- A change stores a hexadecimal field if it keeps a field that is made of texts, and these mean
the numbers that they spell as far as the type has room for them. -/
theorem storesHex_of_keeps {t : PropertyType} {source target : Bag} {key newKey : String}
    {image : String → Except Error Property} {means : Property → t.Carrier → Prop}
    {change : EStateM Error Bag Unit} (hKeeps : Keeps change (.ofText key newKey image) source)
    (hImage : ∀ {p q}, (Field.ofText key newKey image).image p = .ok q ↔
      ∃ v, means p v ∧ q = t.write v)
    (hMeans : ∀ text v, means (.string text) v ↔
      ∃ n : Nat, Hex.Spells text n ∧ t.number? v = some (n : Int))
    (hInvalid : ∀ text e, image text = .error e → e = .invalidHex key text) :
    StoresHex t source target key newKey (change.run target) where
  absent hFind := hKeeps.run_of_find?_eq_none hFind
  mistyped p hFind hKind := hKeeps.run_of_image_eq_error hFind (Field.image_ofText_of_ne hKind)
  refused text hFind hNone := by
    cases hText : image text with
    | error e =>
      rw [← hInvalid text e hText]
      exact hKeeps.run_of_image_eq_error hFind hText
    | ok q =>
      -- A text that is kept spells a number for which there is room.
      have hKept : (Field.ofText key newKey image).image (.string text) = .ok q := hText
      obtain ⟨v, hv, -⟩ := hImage.mp hKept
      obtain ⟨n, hSpells, hNumber⟩ := (hMeans text v).mp hv
      exact absurd (PropertyType.exists_number?_iff.mp ⟨v, hNumber⟩) (hNone n hSpells)
  stored text n hFind hSpells hRoom := by
    obtain ⟨v, hNumber⟩ := PropertyType.exists_number?_iff.mpr hRoom
    have hText := hImage.mpr ⟨v, (hMeans text v).mpr ⟨n, hSpells, hNumber⟩, rfl⟩
    exact ⟨target.insertAs t newKey v, v, hKeeps.run_of_image_eq_ok hFind hText, hNumber,
      get_of_find?_eq_write (find?_insert_self ..),
      fun other hOther => find?_insert_of_ne _ hOther _⟩
  intact := hKeeps.allOrNothing target

section

variable (source target : Bag) (key newKey : String)

theorem keeps_storeHex : Keeps (source.storeHex key newKey) (.hex key newKey) source where
  allOrNothing := .storeHex source key newKey
  changed target := target.copyHex_eq source key newKey

theorem keeps_storeHex16 : Keeps (source.storeHex16 key newKey) (.hex16 key newKey) source where
  allOrNothing := .storeHex16 source key newKey
  changed target := target.copyHex16_eq source key newKey

theorem storesHex : StoresHex .uint32 source target key newKey
    ((source.storeHex key newKey).run target) := by
  refine storesHex_of_keeps (source.keeps_storeHex key newKey) Field.image_hex
    (fun text v => Field.meansHex_string_iff.trans Hex.spells_iff_exists_eq) fun text e hError => ?_
  exact (Hex.read_eq_error_iff.mp (map_eq_error.mp hError)).1

theorem storesHex16 : StoresHex .uint16 source target key newKey
    ((source.storeHex16 key newKey).run target) := by
  refine storesHex_of_keeps (source.keeps_storeHex16 key newKey) Field.image_hex16
    (fun text v => Field.meansHex16_string_iff.trans Hex.spells_iff_exists_eq)
    fun text e hError => ?_
  cases hRead : Hex.read key text with
  | error e' =>
    rw [hRead] at hError
    cases hError
    exact (Hex.read_eq_error_iff.mp hRead).1
  | ok n =>
    -- What is read has no room in 16 bits, or there would be no error.
    rw [hRead] at hError
    by_cases hLt : n.toNat < UInt16.size
    · cases (if_pos hLt).symm.trans hError
    · exact (Except.error.inj ((if_neg hLt).symm.trans hError)).symm

end

end Bag

/-- **Hexadecimal fields are read exactly, and a bad one changes nothing.** A field is read as the
number that its text spells, if this has room in 32 bits, and is otherwise refused with its name and
its text as it is; a text spells at most one number. A field that is stored in another bag, as a
number of 32 or of 16 bits, changes there the one key, which then reads as this number. If it is not
reported the bag stays as it was, and so it does if it is no text or has no room. -/
theorem hex_fields_exact :
    (∀ field value (n : UInt32), Hex.read field value = .ok n ↔ Hex.Spells value n.toNat) ∧
    (∀ field value e, Hex.read field value = .error e ↔
      e = .invalidHex field value ∧ ∀ n, Hex.Spells value n → 2 ^ 32 ≤ n) ∧
    (∀ value m n, Hex.Spells value m → Hex.Spells value n → m = n) ∧
    ∀ (source target : Bag) key newKey,
      Bag.StoresHex .uint32 source target key newKey
        ((source.storeHex key newKey).run target) ∧
      Bag.StoresHex .uint16 source target key newKey
        ((source.storeHex16 key newKey).run target) :=
  ⟨fun _ _ _ => Hex.read_eq_ok_iff_spells, fun _ _ _ => Hex.read_eq_error_iff_spells,
    fun _ _ _ => Hex.Spells.unique, fun source target key newKey =>
      ⟨source.storesHex target key newKey, source.storesHex16 target key newKey⟩⟩

/-- A report with fields at the bounds of 16 and of 32 bits. -/
def boundReport : Bag :=
  .ofList [("ci", .string "\u3000+00fFfFfFfF\n"), ("tac", .string "100000000"),
    ("physical-ci", .string "10000"), ("cell-type", .int 5)]

theorem hex_fields_exact_at_bounds :
    Hex.read "ci" "\u3000+00fFfFfFfF\n" = .ok 0xFFFFFFFF ∧
    Hex.read "tac" "100000000" = .error (.invalidHex "tac" "100000000") ∧
    (∃ after v, (boundReport.storeHex "ci" "tac").run boundReport = .ok () after ∧
      UInt32.toNat v = 0xFFFFFFFF ∧ after.get .uint32 "tac" = .ok v ∧
      after.find? "ci" = boundReport.find? "ci") ∧
    (boundReport.storeHex "absent" "tac").run boundReport = .ok () boundReport ∧
    (boundReport.storeHex "cell-type" "tac").run boundReport =
      .error (.typeMismatch "cell-type" .string .int) boundReport ∧
    (boundReport.storeHex16 "physical-ci" "tac").run boundReport =
      .error (.invalidHex "physical-ci" "10000") boundReport := by
  obtain ⟨hRead, hRefused, hUnique, hStores⟩ := hex_fields_exact
  obtain ⟨hCi, -⟩ := hStores boundReport boundReport "ci" "tac"
  obtain ⟨hAbsent, -⟩ := hStores boundReport boundReport "absent" "tac"
  obtain ⟨hCellType, -⟩ := hStores boundReport boundReport "cell-type" "tac"
  obtain ⟨-, hPhysical⟩ := hStores boundReport boundReport "physical-ci" "tac"
  have hLast : Hex.read "ci" "\u3000+00fFfFfFfF\n" = .ok 0xFFFFFFFF := rfl
  have hWide : Hex.Spells "10000" 0x10000 := (hRead "physical-ci" "10000" 0x10000).mp rfl
  have hLarge : Hex.Spells "100000000" (2 ^ 32) :=
    Hex.spells_iff.mpr (Hex.numeral_iff.mpr ⟨by decide, _, rfl, rfl⟩)
  refine ⟨hLast, ?_, ?_, hAbsent.absent rfl, hCellType.mistyped _ rfl (by decide), ?_⟩
  · exact (hRefused "tac" _ _).mpr ⟨rfl, fun n hn => (hUnique _ _ _ hLarge hn).le⟩
  · obtain ⟨after, v, hRun, hNumber, hGet, hOther⟩ :=
      hCi.stored _ 0xFFFFFFFF rfl ((hRead "ci" _ _).mp hLast) ⟨by decide, by decide⟩
    exact ⟨after, v, hRun, Int.ofNat.inj (Option.some.inj hNumber), hGet, hOther "ci" (by decide)⟩
  · refine hPhysical.refused _ rfl fun n hn hRoom => ?_
    rw [hUnique _ _ _ hn hWide] at hRoom
    exact absurd hRoom.2 (by decide)

end ModemLink
