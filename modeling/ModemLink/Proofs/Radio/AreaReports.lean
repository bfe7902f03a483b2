import ModemLink.Proofs.Radio.Numerals
import ModemLink.Proofs.Radio.Records

/-!
# The text of the location service

The location service reports a cell in one text, with commas between the fields. The text follows a
grammar, and it tells of a cell what the fields of a cell record tell of it.

* `AreaReport.Cut`, `AreaReport.Spells`: the grammar, told without the functions that read it.
* `area_report_grammar`: a text is read as a report exactly if it spells it.
* `CellLocation.decode_of_texts`: the cell in a record whose fields are texts.
* `location_sources_agree`: the text and the record give the same cell, or neither gives one; where
  the text is just not read, the record names the field that is too large.
-/

namespace ModemLink

namespace AreaReport

/-! ## The grammar -/

/-- A text, blanks around it apart, is these fields with a comma between every two of them. -/
def Cut (data : String) (fields : List (List Char)) : Prop :=
  ∃ s, Text.Trimmed data.toList s ∧ Text.Parts ',' s fields

/-- A text is one to three decimal digits. -/
def IsCode (s : List Char) : Prop := 1 ≤ s.length ∧ s.length ≤ 3 ∧ ∀ c ∈ s, '0' ≤ c ∧ c ≤ '9'

/-- A text has at least five fields: the two codes of the report, some number, and the cell and the
tracking area of the report. -/
def Spells (data : String) (r : AreaReport) : Prop :=
  ∃ lac ci tac rest, Cut data (r.mcc.toList :: r.mnc.toList :: lac :: ci :: tac :: rest) ∧
    IsCode r.mcc.toList ∧ IsCode r.mnc.toList ∧
    (∃ n, Hex.Denotes lac n) ∧ Hex.Denotes ci r.ci ∧ Hex.Denotes tac r.tac

theorem segments_trim_eq_iff {data : String} {fields : List (List Char)} :
    Text.segments ',' (Text.trim data.toList) = fields ↔ Cut data fields := by
  simp only [Cut, ← Text.trim_eq_iff, ← Text.segments_eq_iff, exists_eq_left']

theorem isShortCode_iff {s : List Char} : isShortCode s = true ↔ IsCode s := by
  simp [isShortCode, IsCode, Text.isDecimal, Text.decimal?, and_assoc]

/-- What is read of a text with at least five fields. -/
theorem parse?_of_cut {data : String} {mcc mnc lac ci tac : List Char} {rest : List (List Char)}
    (h : Cut data (mcc :: mnc :: lac :: ci :: tac :: rest)) {r : AreaReport} :
    parse? data = some r ↔
      (r.mcc.toList = mcc ∧ r.mnc.toList = mnc) ∧ IsCode mcc ∧ IsCode mnc ∧
        (∃ n, Hex.Denotes lac n) ∧ Hex.Denotes ci r.ci ∧ Hex.Denotes tac r.tac := by
  simp only [parse?, segments_trim_eq_iff.mpr h, ← isShortCode_iff, ← Hex.parse?_eq_some_iff]
  obtain ⟨mcc', mnc', ci', tac'⟩ := r
  constructor
  · intro hParse
    obtain ⟨hCodes, hFields⟩ := Option.ite_none_right_eq_some.mp hParse
    obtain ⟨n, hLac, hFields⟩ := Option.bind_eq_some_iff.mp hFields
    obtain ⟨_, hCi, hFields⟩ := Option.bind_eq_some_iff.mp hFields
    obtain ⟨_, hTac, hReport⟩ := Option.bind_eq_some_iff.mp hFields
    cases hReport
    obtain ⟨hMcc, hMnc⟩ := Bool.and_eq_true_iff.mp hCodes
    exact ⟨⟨String.toList_ofList, String.toList_ofList⟩, hMcc, hMnc, ⟨n, hLac⟩, hCi, hTac⟩
  · rintro ⟨⟨rfl, rfl⟩, hMcc, hMnc, ⟨n, hLac⟩, hCi, hTac⟩
    simp [hMcc, hMnc, hLac, hCi, hTac]

/-- A text is read as a report exactly if it spells it. -/
theorem parse?_eq_some_iff {data : String} {r : AreaReport} :
    parse? data = some r ↔ Spells data r := by
  constructor
  · intro h
    obtain ⟨mcc, mnc, lac, ci, tac, rest, hFields⟩ : ∃ mcc mnc lac ci tac rest,
        Text.segments ',' (Text.trim data.toList) = mcc :: mnc :: lac :: ci :: tac :: rest := by
      unfold parse? at h
      split at h
      next mcc mnc lac ci tac rest hFields => exact ⟨mcc, mnc, lac, ci, tac, rest, hFields⟩
      next => cases h
    have hCut := segments_trim_eq_iff.mp hFields
    obtain ⟨⟨rfl, rfl⟩, hReport⟩ := (parse?_of_cut hCut).mp h
    exact ⟨lac, ci, tac, rest, hCut, hReport⟩
  · rintro ⟨lac, ci, tac, rest, hCut, hReport⟩
    exact (parse?_of_cut hCut).mpr ⟨⟨rfl, rfl⟩, hReport⟩

/-! ## Written reports -/

/-- No character of a field is a blank or a comma. -/
def IsField (s : List Char) : Prop := ∀ c ∈ s, Text.isBlank c = false ∧ c ≠ ','

theorem isField_of_isDigit {s : List Char} (h : ∀ c ∈ s, ∃ d, Hex.IsDigit c d) : IsField s := by
  intro c hc
  obtain ⟨d, hDigit⟩ := h c hc
  exact ⟨hDigit.proper.1, hDigit.proper.2.1⟩

theorem IsCode.isField {s : List Char} (h : IsCode s) : IsField s :=
  isField_of_isDigit fun c hc => ⟨_, Hex.hex?_eq_some_iff.mp (if_pos (h.2.2 c hc))⟩

theorem isField_of_denotes {s : List Char} {n : UInt32} (h : Hex.Denotes s n) : IsField s := by
  obtain ⟨digits, rfl | rfl, hNumeral⟩ := h
  · exact isField_of_isDigit hNumeral.isDigit
  · exact List.forall_mem_cons.mpr ⟨by decide, isField_of_isDigit hNumeral.isDigit⟩

theorem forall_mem_intercalate {P : Char → Prop} {sep : Char} {fields : List (List Char)}
    (hSep : P sep) (h : ∀ s ∈ fields, ∀ c ∈ s, P c) : ∀ c ∈ [sep].intercalate fields, P c := by
  induction fields with
  | nil => simp
  | cons s rest ih =>
    obtain ⟨hFirst, hRest⟩ := List.forall_mem_cons.mp h
    cases rest with
    | nil => simpa using hFirst
    | cons s' rest =>
      rw [List.intercalate_cons_cons, List.forall_mem_append, List.forall_mem_append]
      exact ⟨⟨hFirst, by simpa using hSep⟩, ih hRest⟩

/-- A text that is made from fields has these fields. -/
theorem cut_intercalate {before after : String} {fields : List String}
    (hBefore : ∀ c ∈ before.toList, Text.isBlank c = true)
    (hAfter : ∀ c ∈ after.toList, Text.isBlank c = true)
    (hFields : fields ≠ []) (h : ∀ s ∈ fields, IsField s.toList) :
    Cut (before ++ ",".intercalate fields ++ after) (fields.map String.toList) := by
  rw [← List.forall_mem_map (f := String.toList) (P := IsField)] at h
  have hTight : Text.IsTight ([','].intercalate (fields.map String.toList)) :=
    Text.isTight_of_forall (forall_mem_intercalate (by decide) fun s hs c hc => (h s hs c hc).1)
  have hText : (before ++ ",".intercalate fields ++ after).toList =
      before.toList ++ [','].intercalate (fields.map String.toList) ++ after.toList := by
    simp [String.toList_intercalate]
  exact ⟨_, ⟨before.toList, after.toList, hText, hBefore, hAfter, hTight⟩, rfl,
    by simpa using hFields, fun s hs hComma => (h s hs ',' hComma).2 rfl⟩

end AreaReport

/-! ## Locations -/

theorem Location.ofReport_technology (data : String) (g : Generation) :
    ofReport data g.technology = .ok ((AreaReport.parse? data).map fun r => ⟨g, .ofReport r⟩) := by
  rw [ofReport, g.generation_technology]
  rfl

/-- **The text of the location service is read exactly if it follows its grammar**, and what is read
is what it spells. The number of the location area and the fields after the fifth make no
difference. Codes and numbers that are written into a text, in whatever style and with whatever
blanks around the whole, are read from it again. For exactly LTE and exactly NR no text is an
error: one that spells no report is no location. -/
theorem area_report_grammar :
    (∀ data r, AreaReport.parse? data = some r ↔ AreaReport.Spells data r) ∧
    (∀ {data data' : String} {mcc mnc lac lac' ci tac : List Char} {rest rest' : List (List Char)}
      {n n' : UInt32}, AreaReport.Cut data (mcc :: mnc :: lac :: ci :: tac :: rest) →
      AreaReport.Cut data' (mcc :: mnc :: lac' :: ci :: tac :: rest') →
      Hex.Denotes lac n → Hex.Denotes lac' n' →
      AreaReport.parse? data = AreaReport.parse? data') ∧
    (∀ (mcc mnc : String) (lac ci tac : UInt32) (lacStyle ciStyle tacStyle : Hex.Style)
      (before after : String), AreaReport.IsCode mcc.toList → AreaReport.IsCode mnc.toList →
      (∀ c ∈ before.toList, Text.isBlank c = true) → (∀ c ∈ after.toList, Text.isBlank c = true) →
      AreaReport.parse? (before ++ ",".intercalate [mcc, mnc, Hex.spelled lacStyle lac,
        Hex.spelled ciStyle ci, Hex.spelled tacStyle tac] ++ after) = some ⟨mcc, mnc, ci, tac⟩) ∧
    ∀ (data : String) (g : Generation), Location.ofReport data g.technology =
      .ok ((AreaReport.parse? data).map fun r => ⟨g, .ofReport r⟩) := by
  refine ⟨fun _ _ => AreaReport.parse?_eq_some_iff, ?_, ?_, Location.ofReport_technology⟩
  · intro data data' mcc mnc lac lac' ci tac rest rest' n n' hCut hCut' hLac hLac'
    refine Option.ext fun r => ?_
    rw [AreaReport.parse?_of_cut hCut, AreaReport.parse?_of_cut hCut']
    have hBoth : (∃ n, Hex.Denotes lac n) ↔ ∃ n, Hex.Denotes lac' n :=
      iff_of_true ⟨n, hLac⟩ ⟨n', hLac'⟩
    rw [hBoth]
  · intro mcc mnc lac ci tac lacStyle ciStyle tacStyle before after hMcc hMnc hBefore hAfter
    have hLac := Hex.denotes_spelled lacStyle lac
    have hCi := Hex.denotes_spelled ciStyle ci
    have hTac := Hex.denotes_spelled tacStyle tac
    refine (AreaReport.parse?_of_cut (AreaReport.cut_intercalate hBefore hAfter (by simp) ?_)).mpr
      ⟨⟨rfl, rfl⟩, hMcc, hMnc, ⟨lac, hLac⟩, hCi, hTac⟩
    simp only [List.forall_mem_cons]
    exact ⟨hMcc.isField, hMnc.isField, AreaReport.isField_of_denotes hLac,
      AreaReport.isField_of_denotes hCi, AreaReport.isField_of_denotes hTac, List.forall_mem_nil _⟩

theorem area_report_grammar_cell :
    AreaReport.Cut "262,02,FFFE,1A2B,3C4D"
      (["262", "02", "FFFE", "1A2B", "3C4D"].map String.toList) ∧
    AreaReport.Cut "262,02,+0,1A2B,3C4D,more,\t"
      (["262", "02", "+0", "1A2B", "3C4D", "more", ""].map String.toList) ∧
    AreaReport.parse? "262,02,FFFE,1A2B,3C4D" =
      AreaReport.parse? "262,02,+0,1A2B,3C4D,more,\t" ∧
    AreaReport.parse? ("\t" ++ ",".intercalate ["262", "02", Hex.spelled ⟨0, fun _ => false⟩ 0xFFFE,
      Hex.spelled ⟨9, fun i => i = 10⟩ 0x1A2B, Hex.spelled ⟨0, fun _ => true⟩ 0x3C4D] ++ "\n") =
      some ⟨"262", "02", 6699, 15437⟩ := by
  obtain ⟨-, hSame, hWritten, -⟩ := area_report_grammar
  have hCut : AreaReport.Cut "262,02,FFFE,1A2B,3C4D" _ :=
    AreaReport.segments_trim_eq_iff.mp rfl
  have hCut' : AreaReport.Cut "262,02,+0,1A2B,3C4D,more,\t" _ :=
    AreaReport.segments_trim_eq_iff.mp rfl
  have hCode : AreaReport.IsCode "262".toList ∧ AreaReport.IsCode "02".toList :=
    ⟨AreaReport.isShortCode_iff.mp rfl, AreaReport.isShortCode_iff.mp rfl⟩
  refine ⟨hCut, hCut', ?_, ?_⟩
  · have hArea : Hex.Denotes "FFFE".toList 0xFFFE := Hex.parse?_eq_some_iff.mp rfl
    have hArea' : Hex.Denotes "+0".toList 0 := Hex.parse?_eq_some_iff.mp rfl
    exact hSame hCut hCut' hArea hArea'
  · have hBlank : Text.isBlank '\t' = true ∧ Text.isBlank '\n' = true := by decide
    exact hWritten _ _ _ _ _ _ _ _ _ _ hCode.1 hCode.2 (by simp [hBlank.1]) (by simp [hBlank.2])

/-! ## The same cell from both sources -/

/-- The texts with which a cell is reported by either source: the codes of its network in decimal
digits, an area of 32 bits, and the cell and its tracking area in hexadecimal digits, of any number
whatever. -/
structure CellTexts where
  mcc : String
  mnc : String
  lac : String
  ci : String
  tac : String
  isCode_mcc : AreaReport.IsCode mcc.toList
  length_mcc : mcc.toList.length = 3
  isCode_mnc : AreaReport.IsCode mnc.toList
  denotes_lac : ∃ n, Hex.Denotes lac.toList n
  ci_ne_empty : ci.toList ≠ []
  isDigit_ci : ∀ c ∈ ci.toList, ∃ d, Hex.IsDigit c d
  tac_ne_empty : tac.toList ≠ []
  isDigit_tac : ∀ c ∈ tac.toList, ∃ d, Hex.IsDigit c d

namespace CellTexts

/-- The text of the location service. -/
def report (t : CellTexts) : String := ",".intercalate [t.mcc, t.mnc, t.lac, t.ci, t.tac]

/-- The fields of a cell record. -/
def record (t : CellTexts) : Bag :=
  .ofList [("operator-id", .string (t.mcc ++ t.mnc)), ("ci", .string t.ci), ("tac", .string t.tac)]

end CellTexts

/-- The cell in a record whose fields are texts. -/
theorem CellLocation.decode_of_texts {raw : Bag} {plmn ci tac : String}
    (hPlmn : raw.find? "operator-id" = some (.string plmn))
    (hCi : raw.find? "ci" = some (.string ci)) (hTac : raw.find? "tac" = some (.string tac)) :
    decode raw = (Hex.read "ci" ci).bind fun n => (Hex.read "tac" tac).map fun m =>
      .ofReport ⟨(Plmn.split plmn).1, (Plmn.split plmn).2, n, m⟩ := by
  simp only [decode, Bag.copyHex_eq_bind, Bag.getOptional?, hPlmn, hCi, hTac, PropertyType.read?,
    bind, Except.bind, pure, Except.pure]
  cases Hex.read "ci" ci with
  | error e => rfl
  | ok n => cases Hex.read "tac" tac <;> rfl

namespace CellTexts

variable (t : CellTexts)

theorem decode_record : CellLocation.decode t.record =
    (Hex.read "ci" t.ci).bind fun n => (Hex.read "tac" t.tac).map fun m =>
      .ofReport ⟨t.mcc, t.mnc, n, m⟩ := by
  have hSplit : Plmn.split (t.mcc ++ t.mnc) = (t.mcc, t.mnc) := by
    simp [Plmn.split, String.toList_append, ← t.length_mcc]
  have hPlmn : t.record.find? "operator-id" = some (.string (t.mcc ++ t.mnc)) := by
    simp [record, Bag.ofList, Bag.find?_insert_of_ne]
  have hCi : t.record.find? "ci" = some (.string t.ci) := by
    simp [record, Bag.ofList, Bag.find?_insert_of_ne]
  have hTac : t.record.find? "tac" = some (.string t.tac) := by simp [record, Bag.ofList]
  rw [CellLocation.decode_of_texts hPlmn hCi hTac, hSplit]

theorem parse?_report {r : AreaReport} : AreaReport.parse? t.report = some r ↔
    (r.mcc = t.mcc ∧ r.mnc = t.mnc) ∧ Hex.Denotes t.ci.toList r.ci ∧
      Hex.Denotes t.tac.toList r.tac := by
  obtain ⟨n, hLac⟩ := t.denotes_lac
  have hFields : ∀ s ∈ [t.mcc, t.mnc, t.lac, t.ci, t.tac], AreaReport.IsField s.toList := by
    simp only [List.forall_mem_cons]
    exact ⟨t.isCode_mcc.isField, t.isCode_mnc.isField, AreaReport.isField_of_denotes hLac,
      AreaReport.isField_of_isDigit t.isDigit_ci, AreaReport.isField_of_isDigit t.isDigit_tac,
      List.forall_mem_nil _⟩
  have hCut : AreaReport.Cut ("" ++ t.report ++ "") _ :=
    AreaReport.cut_intercalate nofun nofun (by simp) hFields
  rw [String.empty_append, String.append_empty] at hCut
  rw [AreaReport.parse?_of_cut hCut, String.toList_inj, String.toList_inj]
  simp only [t.isCode_mcc, t.isCode_mnc, t.denotes_lac, true_and]

/-- Either both sources give the same cell, or the one gives none and the other names the number
that is too large, that of the cell first. -/
theorem both_or_neither (g : Generation) :
    (∃ l, Location.ofReport t.report g.technology = .ok (some l) ∧
      Location.decode t.record g.technology = .ok l ∧
      ¬ Hex.Overflows t.ci.toList ∧ ¬ Hex.Overflows t.tac.toList) ∨
    (Location.ofReport t.report g.technology = .ok none ∧
      ((Hex.Overflows t.ci.toList ∧
          Location.decode t.record g.technology = .error (.invalidHex "ci" t.ci)) ∨
        (¬ Hex.Overflows t.ci.toList ∧ Hex.Overflows t.tac.toList ∧
          Location.decode t.record g.technology = .error (.invalidHex "tac" t.tac)))) := by
  have hNone : (Hex.Overflows t.ci.toList ∨ Hex.Overflows t.tac.toList) →
      AreaReport.parse? t.report = none := by
    intro hLarge
    refine Option.eq_none_iff_forall_ne_some.mpr fun r hReport => ?_
    obtain ⟨-, hCi, hTac⟩ := t.parse?_report.mp hReport
    exact hLarge.elim (fun h => h.not_denotes _ hCi) fun h => h.not_denotes _ hTac
  rw [Location.ofReport_technology, Location.decode_technology, decode_record]
  rcases Hex.overflows_or_denotes t.ci_ne_empty t.isDigit_ci with hCi | ⟨n, hCi⟩
  · rw [hNone (.inl hCi), Hex.read_of_overflows hCi]
    exact .inr ⟨rfl, .inl ⟨hCi, rfl⟩⟩
  · rw [Hex.read_of_denotes (Hex.isTight_of_isDigit t.isDigit_ci) hCi]
    have hCiFits : ¬ Hex.Overflows t.ci.toList := fun h => h.not_denotes n hCi
    rcases Hex.overflows_or_denotes t.tac_ne_empty t.isDigit_tac with hTac | ⟨m, hTac⟩
    · rw [hNone (.inr hTac), Hex.read_of_overflows hTac]
      exact .inr ⟨rfl, .inr ⟨hCiFits, hTac, rfl⟩⟩
    · rw [Hex.read_of_denotes (Hex.isTight_of_isDigit t.isDigit_tac) hTac,
        (t.parse?_report (r := ⟨t.mcc, t.mnc, n, m⟩)).mpr ⟨⟨rfl, rfl⟩, hCi, hTac⟩]
      exact .inl ⟨_, rfl, rfl, hCiFits, fun h => h.not_denotes m hTac⟩

end CellTexts

/-- **The two sources of a location agree.** For exactly LTE and exactly NR the text of the location
service is a location if the fields of the cell record are one, and then it is the same. It is none
exactly if the record is refused for a hexadecimal field: that of the cell if its number has no room
in 32 bits, and otherwise that of the tracking area. -/
theorem location_sources_agree (t : CellTexts) (g : Generation) :
    (∀ l, Location.ofReport t.report g.technology = .ok (some l) ↔
      Location.decode t.record g.technology = .ok l) ∧
    (Location.ofReport t.report g.technology = .ok none ↔
      ∃ field value, Location.decode t.record g.technology = .error (.invalidHex field value)) ∧
    ∀ field value, Location.decode t.record g.technology = .error (.invalidHex field value) ↔
      (Hex.Overflows t.ci.toList ∧ field = "ci" ∧ value = t.ci) ∨
        (¬ Hex.Overflows t.ci.toList ∧ Hex.Overflows t.tac.toList ∧ field = "tac" ∧
          value = t.tac) := by
  rcases t.both_or_neither g with
    ⟨l, hReport, hRecord, hCi, hTac⟩ | ⟨hReport, ⟨hCi, hRecord⟩ | ⟨hCi, hTac, hRecord⟩⟩
  · rw [hReport, hRecord]
    simp [hCi, hTac]
  · rw [hReport, hRecord]
    simp [hCi, eq_comm]
  · rw [hReport, hRecord]
    simp [hCi, hTac, eq_comm]

theorem numeral_wide : Hex.Numeral "100000000".toList UInt32.size :=
  Hex.numeral_iff.mpr ⟨by decide, _, rfl, rfl⟩

theorem numeral_widest : Hex.Numeral "0fffffFFF".toList (UInt32.size - 1) :=
  Hex.numeral_iff.mpr ⟨by decide, _, rfl, rfl⟩

/-- A cell with the largest number that has room and a tracking area with the next one. -/
def wideTexts : CellTexts where
  mcc := "262"
  mnc := "02"
  lac := "+FFFE"
  ci := "0fffffFFF"
  tac := "100000000"
  isCode_mcc := AreaReport.isShortCode_iff.mp rfl
  length_mcc := rfl
  isCode_mnc := AreaReport.isShortCode_iff.mp rfl
  denotes_lac := ⟨0xFFFE, Hex.parse?_eq_some_iff.mp rfl⟩
  ci_ne_empty := by decide
  isDigit_ci := numeral_widest.isDigit
  tac_ne_empty := by decide
  isDigit_tac := numeral_wide.isDigit

theorem location_sources_agree_wide :
    Location.ofReport wideTexts.report .lte = .ok none ∧
    Location.decode wideTexts.record .lte = .error (.invalidHex "tac" "100000000") := by
  obtain ⟨-, hNone, hError⟩ := location_sources_agree wideTexts .lte
  have hCi : ¬ Hex.Overflows wideTexts.ci.toList := fun h =>
    h.not_denotes 0xFFFFFFFF (Hex.denotes_of_numeral numeral_widest)
  have hTac : Hex.Overflows wideTexts.tac.toList := ⟨_, numeral_wide, Nat.le_refl _⟩
  have hRefused := (hError "tac" "100000000").mpr (.inr ⟨hCi, hTac, rfl, rfl⟩)
  exact ⟨hNone.mpr ⟨_, _, hRefused⟩, hRefused⟩

end ModemLink
