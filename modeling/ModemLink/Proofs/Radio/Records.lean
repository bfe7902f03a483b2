import ModemLink.Proofs.Property.Fields
import ModemLink.Radio.Location

/-!
# Signal quality and location mirror what is reported

The records of the signal quality and of the location hold what is reported under the keys that they
know, and nothing else; they are refused only if the technology is not exactly LTE or NR, or if one
of these reports cannot be read.

* `Signal.decodeValues_eq`, `CellLocation.decode_eq`: the records as lists of fields.
* `Signal.Readable`, `Signal.Mirrors`, `CellLocation.Readable`, `CellLocation.Mirrors`: which
  reports can be read, and what the records then hold.
* `decoding_mirrors_reports`: both records, for every technology and all reports.
-/

namespace ModemLink

open Bag (Field)

/-! ## The fields of the records -/

/-- The fields of the signal quality of a generation. -/
def Signal.projected (g : Generation) : List Field :=
  (fields g).map fun f => .typed .float f.1 f.2

theorem Signal.decodeValues_eq (g : Generation) (raw : Bag) :
    decodeValues g raw = raw.project (projected g) ∅ := by
  rw [Bag.project, projected, List.foldlM_map]
  unfold decodeValues
  congr
  funext values f
  rw [Bag.copyAs_eq]
  cases (Field.typed .float f.1 f.2).value raw <;> rfl

/-- The fields of a location. Two of them come from one report. -/
def CellLocation.projected : List Field :=
  [.ofText "operator-id" "mcc" fun plmn => .ok (.string (Plmn.split plmn).1),
    .ofText "operator-id" "mnc" fun plmn => .ok (.string (Plmn.split plmn).2),
    .hex "ci" "ci", .hex "tac" "tac"]

theorem CellLocation.decode_eq (raw : Bag) :
    decode raw = (raw.project projected ∅).map mk := by
  have hRest : ∀ values : Bag, (do
      let values ← values.copyHex raw "ci" "ci"
      let values ← values.copyHex raw "tac" "tac"
      return (⟨values⟩ : CellLocation)) =
        (raw.project [.hex "ci" "ci", .hex "tac" "tac"] values).map mk := by
    intro values
    change _ = mk <$> _
    simp only [Bag.copyHex_eq, Bag.project, List.foldlM_cons, List.foldlM_nil, map_bind, map_pure]
    rfl
  -- The network identifier is read once and cut in two; as two fields it is read twice.
  simp only [decode, hRest, projected, Bag.getOptional?]
  cases hRaw : raw.find? "operator-id" with
  | none =>
    rw [Bag.project_cons_of_ok (Field.value_of_find?_eq_none hRaw),
      Bag.project_cons_of_ok (Field.value_of_find?_eq_none hRaw)]
    rfl
  | some p =>
    cases hText : PropertyType.string.read? p with
    | none =>
      rw [Bag.project_cons_of_error (e := .typeMismatch "operator-id" .string p.kind)]
      · simp only [hText]
        rfl
      · rw [Field.value_of_find?_eq_some hRaw]
        simp only [Field.ofText, hText]
        rfl
    | some plmn =>
      have hValue : ∀ {name} (image : String → Property),
          (Field.ofText "operator-id" name fun plmn => .ok (image plmn)).value raw =
            .ok (some (image plmn)) := fun image => by
        rw [Field.value_of_find?_eq_some hRaw]
        simp only [Field.ofText, hText]
        rfl
      rw [Bag.project_cons_of_ok (hValue _), Bag.project_cons_of_ok (hValue _)]
      simp only [hText]
      rfl

/-! ## Technologies -/

@[simp] theorem Generation.generation_technology (g : Generation) :
    g.technology.generation = .ok g := by
  cases g <;> rfl

theorem Technology.generation_eq_ok_iff {t : Technology} {g : Generation} :
    t.generation = .ok g ↔ t = g.technology := by
  refine ⟨fun h => ?_, fun h => h ▸ g.generation_technology⟩
  unfold Technology.generation at h
  split at h
  · cases h
    assumption
  · split at h
    · cases h
      assumption
    · cases h

theorem Technology.generation_eq_error_iff {t : Technology} {e : Error} :
    t.generation = .error e ↔ e = .unsupportedTechnology t ∧ t ≠ .lte ∧ t ≠ .nr5g := by
  unfold Technology.generation
  by_cases hLte : t = .lte
  · simp [hLte]
  · by_cases hNr : t = .nr5g
    · simp [hNr, Technology.lte, Technology.nr5g]
    · simp [hLte, hNr, eq_comm]

/-- A reader that fails for the technology, if at all, before anything else, is refused it exactly
for the technologies without a generation. -/
theorem Technology.unsupported_iff {α : Type} {read : Technology → Except Error α}
    (hFirst : ∀ t e, t.generation = .error e → read t = .error e)
    (hOnly : ∀ (g : Generation) u, read g.technology ≠ .error (.unsupportedTechnology u))
    {t u : Technology} :
    read t = .error (.unsupportedTechnology u) ↔ u = t ∧ t ≠ .lte ∧ t ≠ .nr5g := by
  rw [← Error.unsupportedTechnology.injEq, ← Technology.generation_eq_error_iff]
  cases hGeneration : t.generation with
  | error e => rw [hFirst t e hGeneration, Except.error.injEq, Except.error.injEq]
  | ok g =>
    obtain rfl := Technology.generation_eq_ok_iff.mp hGeneration
    exact ⟨fun h => (hOnly g u h).elim, nofun⟩

theorem Signal.decode_technology (raw : Bag) (g : Generation) :
    decode raw g.technology = (decodeValues g raw).map (mk g) := by
  rw [decode, g.generation_technology]
  change (decodeValues g raw >>= fun values => .ok (mk g values)) = _
  cases decodeValues g raw <;> rfl

theorem Signal.decode_of_error {raw : Bag} {t : Technology} {e : Error}
    (h : t.generation = .error e) : decode raw t = .error e := by
  rw [decode, h]
  rfl

theorem Location.decode_technology (raw : Bag) (g : Generation) :
    decode raw g.technology = (CellLocation.decode raw).map (mk g) := by
  rw [decode, g.generation_technology]
  change (CellLocation.decode raw >>= fun cell => .ok (mk g cell)) = _
  cases CellLocation.decode raw <;> rfl

theorem Location.decode_of_error {raw : Bag} {t : Technology} {e : Error}
    (h : t.generation = .error e) : decode raw t = .error e := by
  rw [decode, h]
  rfl

/-! ## What the records hold -/

namespace Signal

/-- The keys of the signal reports that count for a generation. -/
def reported : Generation → List String
  | .lte => ["rsrp", "rsrq", "rssi", "snr"]
  | .nr5g => ["rsrp", "rsrq", "snr"]

/-- The signal reports of a generation can be read: those that there are hold a floating point
number. -/
def Readable (g : Generation) (raw : Bag) : Prop :=
  ∀ key ∈ reported g, ∀ p, raw.find? key = some p → ∃ x, p = .float x

/-- A signal record mirrors the reports of its generation and holds nothing else. -/
structure Mirrors (s : Signal) (raw : Bag) : Prop where
  rsrp : raw.Mirrors .float "rsrp" (fun p x => p = .float x) s.values "rsrp" s.rsrp
  rsrq : raw.Mirrors .float "rsrq" (fun p x => p = .float x) s.values "rsrq" s.rsrq
  rssi : match s.generation with
    | .lte => raw.Mirrors .float "rssi" (fun p x => p = .float x) s.values "rssi" s.rssi
    | .nr5g => s.values.find? "rssi" = none ∧ s.rssi = .error (.keyNotFound "rssi")
  sinr : raw.Mirrors .float "snr" (fun p x => p = .float x) s.values "sinr" s.sinr
  only : ∀ name ∉ ["rsrp", "rsrq", "rssi", "sinr"], s.values.find? name = none

theorem map_key_projected (g : Generation) : (projected g).map Field.key = reported g := by
  cases g <;> rfl

theorem nodup_name_projected (g : Generation) : ((projected g).map Field.name).Nodup := by
  cases g <;> decide

theorem decodeValues_eq_ok_iff {raw values : Bag} {g : Generation} :
    decodeValues g raw = .ok values ↔ (mk g values).Mirrors raw := by
  have hFields : (∀ f ∈ projected g, f.value raw = .ok (values.find? f.name)) ↔
      ∀ f ∈ fields g, raw.Mirrors .float f.1 (fun p x => p = .float x) values f.2
        (values.get .float f.2) := by
    rw [projected, List.forall_mem_map]
    exact forall₂_congr fun f _ => Bag.mirrors_typed.symm
  rw [decodeValues_eq, Bag.project_eq_ok_iff (nodup_name_projected g) fun _ _ => rfl, hFields]
  cases g with
  | lte =>
    simp only [fields, List.forall_mem_cons]
    constructor
    · rintro ⟨⟨hRsrp, hRsrq, hRssi, hSinr, -⟩, hRest⟩
      exact ⟨hRsrp, hRsrq, hRssi, hSinr, hRest⟩
    · rintro ⟨hRsrp, hRsrq, hRssi, hSinr, hRest⟩
      exact ⟨⟨hRsrp, hRsrq, hRssi, hSinr, List.forall_mem_nil _⟩, hRest⟩
  | nr5g =>
    have hNames : (projected .nr5g).map Field.name = ["rsrp", "rsrq", "sinr"] := rfl
    simp only [hNames, fields, List.forall_mem_cons]
    constructor
    · rintro ⟨⟨hRsrp, hRsrq, hSinr, -⟩, hRest⟩
      -- The received strength is not among the fields of this generation.
      have hRssi : values.find? "rssi" = none := hRest "rssi" (by decide)
      have hSub : ["rsrp", "rsrq", "sinr"] ⊆ ["rsrp", "rsrq", "rssi", "sinr"] := by simp
      exact ⟨hRsrp, hRsrq, ⟨hRssi, Bag.get_of_find?_eq_none hRssi .float⟩, hSinr,
        fun name hName => hRest name fun hMem => hName (hSub hMem)⟩
    · rintro ⟨hRsrp, hRsrq, ⟨hRssi, -⟩, hSinr, hRest⟩
      refine ⟨⟨hRsrp, hRsrq, hSinr, List.forall_mem_nil _⟩, fun name hName => ?_⟩
      by_cases hEq : name = "rssi"
      · rwa [hEq]
      · exact hRest name fun hMem => hName (by simpa [hEq] using hMem)

theorem exists_decodeValues_iff {raw : Bag} {g : Generation} :
    (∃ values, decodeValues g raw = .ok values) ↔ Readable g raw := by
  rw [decodeValues_eq, Bag.exists_project_iff, Readable, ← map_key_projected, List.forall_mem_map]
  refine forall₂_congr fun f hf => ?_
  obtain ⟨field, -, rfl⟩ := List.mem_map.mp hf
  exact Field.exists_value_typed

theorem decode_eq_ok_iff {raw : Bag} {g : Generation} {s : Signal} :
    decode raw g.technology = .ok s ↔ s.generation = g ∧ s.Mirrors raw := by
  rw [decode_technology, map_eq_ok]
  constructor
  · rintro ⟨values, hValues, rfl⟩
    exact ⟨rfl, decodeValues_eq_ok_iff.mp hValues⟩
  · rintro ⟨rfl, hMirrors⟩
    exact ⟨s.values, decodeValues_eq_ok_iff.mpr hMirrors, rfl⟩

theorem exists_decode_iff {raw : Bag} {g : Generation} :
    (∃ s, decode raw g.technology = .ok s) ↔ Readable g raw := by
  rw [decode_technology, exists_map_eq_ok, exists_decodeValues_iff]

theorem decode_eq_unsupported_iff {raw : Bag} {t u : Technology} :
    decode raw t = .error (.unsupportedTechnology u) ↔ u = t ∧ t ≠ .lte ∧ t ≠ .nr5g := by
  refine Technology.unsupported_iff (fun _ _ => decode_of_error) fun g u h => ?_
  rw [decode_technology, map_eq_error, decodeValues_eq] at h
  obtain ⟨f, hf, hValue⟩ := Bag.exists_of_project_eq_error h
  obtain ⟨field, -, rfl⟩ := List.mem_map.mp hf
  exact Field.blames_of_value Field.blames_typed hValue

theorem decode_congr {raw other : Bag} {g : Generation}
    (h : ∀ key ∈ reported g, other.find? key = raw.find? key) :
    decode other g.technology = decode raw g.technology := by
  rw [← map_key_projected, List.forall_mem_map] at h
  rw [decode_technology, decode_technology, decodeValues_eq, decodeValues_eq, Bag.project_congr h]

end Signal

namespace CellLocation

/-- The location reports can be read: those that there are hold texts, and the texts of the cell
and of its area are hexadecimal numbers. -/
structure Readable (raw : Bag) : Prop where
  operatorId : ∀ p, raw.find? "operator-id" = some p → ∃ plmn, p = .string plmn
  ci : ∀ p, raw.find? "ci" = some p → ∃ n text, p = .string text ∧ Hex.read "ci" text = .ok n
  tac : ∀ p, raw.find? "tac" = some p → ∃ n text, p = .string text ∧ Hex.read "tac" text = .ok n

/-- A location record mirrors the location reports and holds nothing else. -/
structure Mirrors (c : CellLocation) (raw : Bag) : Prop where
  mcc : raw.Mirrors .string "operator-id"
    (fun p mcc => ∃ plmn, p = .string plmn ∧ mcc.toList = plmn.toList.take 3) c.values "mcc" c.mcc
  mnc : raw.Mirrors .string "operator-id"
    (fun p mnc => ∃ plmn, p = .string plmn ∧ mnc.toList = plmn.toList.drop 3) c.values "mnc" c.mnc
  /-- The two codes are the network identifier, cut in two. -/
  codes : ∀ plmn, raw.find? "operator-id" = some (.string plmn) →
    ∃ mcc mnc, c.mcc = .ok mcc ∧ c.mnc = .ok mnc ∧ mcc ++ mnc = plmn
  ci : raw.Mirrors .uint32 "ci"
    (fun p n => ∃ text, p = .string text ∧ Hex.read "ci" text = .ok n) c.values "ci" c.ci
  tac : raw.Mirrors .uint32 "tac"
    (fun p n => ∃ text, p = .string text ∧ Hex.read "tac" text = .ok n) c.values "tac" c.tac
  only : ∀ name ∉ ["mcc", "mnc", "ci", "tac"], c.values.find? name = none

/-- The keys of the location reports. -/
def reported : List String := ["operator-id", "ci", "tac"]

/-- A part of the network identifier, as a property kept under a name. -/
theorem image_part {name : String} {part : String → String} {cut : List Char → List Char}
    (hPart : ∀ plmn, part plmn = String.ofList (cut plmn.toList)) {p q : Property} :
    (Field.ofText "operator-id" name fun plmn => .ok (.string (part plmn))).image p = .ok q ↔
      ∃ code, (∃ plmn, p = .string plmn ∧ code.toList = cut plmn.toList) ∧
        q = PropertyType.string.write code := by
  rw [Field.image_ofText]
  constructor
  · rintro ⟨plmn, rfl, hKept⟩
    have hList : (part plmn).toList = cut plmn.toList := by rw [hPart, String.toList_ofList]
    exact ⟨part plmn, ⟨plmn, rfl, hList⟩, (Except.ok.inj hKept).symm⟩
  · rintro ⟨code, ⟨plmn, rfl, hList⟩, rfl⟩
    refine ⟨plmn, rfl, ?_⟩
    rw [hPart, ← hList, String.ofList_toList]
    rfl

theorem decode_eq_ok_iff {raw : Bag} {c : CellLocation} :
    decode raw = .ok c ↔ c.Mirrors raw := by
  have hRecord : decode raw = .ok c ↔ raw.project projected ∅ = .ok c.values := by
    obtain ⟨values⟩ := c
    simp only [decode_eq, map_eq_ok, mk.injEq, exists_eq_right]
  rw [hRecord, Bag.project_eq_ok_iff (by decide) fun _ _ => rfl]
  simp only [projected, List.forall_mem_cons]
  constructor
  · rintro ⟨⟨hMcc, hMnc, hCi, hTac, -⟩, hRest⟩
    refine ⟨(Bag.mirrors_iff (image_part fun _ => rfl)).mpr hMcc,
      (Bag.mirrors_iff (image_part fun _ => rfl)).mpr hMnc, fun plmn hPlmn => ?_,
      Bag.mirrors_hex.mpr hCi, Bag.mirrors_hex.mpr hTac, hRest⟩
    have hPart : ∀ {name : String} {part : String → String},
        (Field.ofText "operator-id" name fun plmn => .ok (.string (part plmn))).value raw =
          .ok (c.values.find? name) → c.values.get .string name = .ok (part plmn) := by
      intro name part hValue
      rw [Field.value_of_find?_eq_some hPlmn] at hValue
      exact Bag.get_of_find?_eq_write (Except.ok.inj hValue).symm
    refine ⟨_, _, hPart hMcc, hPart hMnc, ?_⟩
    rw [Plmn.split, ← String.ofList_append, List.take_append_drop, String.ofList_toList]
  · rintro ⟨hMcc, hMnc, -, hCi, hTac, hRest⟩
    exact ⟨⟨(Bag.mirrors_iff (image_part fun _ => rfl)).mp hMcc,
      (Bag.mirrors_iff (image_part fun _ => rfl)).mp hMnc,
      Bag.mirrors_hex.mp hCi, Bag.mirrors_hex.mp hTac, List.forall_mem_nil _⟩, hRest⟩

/-- Either part of the network identifier can be kept if it is reported as a text. -/
theorem exists_value_part {name : String} {part : String → String} {raw : Bag} :
    (∃ o, (Field.ofText "operator-id" name fun plmn => .ok (.string (part plmn))).value raw =
      .ok o) ↔ ∀ p, raw.find? "operator-id" = some p → ∃ plmn, p = .string plmn := by
  have hImage : ∀ {p q : Property},
      (Field.ofText "operator-id" name fun plmn => .ok (.string (part plmn))).image p = .ok q ↔
        ∃ plmn, p = .string plmn ∧ q = .string (part plmn) := by
    intro p q
    rw [Field.image_ofText]
    exact exists_congr fun plmn => and_congr_right fun _ => by rw [Except.ok.injEq, eq_comm]
  exact Field.exists_value_iff hImage

theorem exists_decode_iff {raw : Bag} : (∃ c, decode raw = .ok c) ↔ Readable raw := by
  rw [decode_eq, exists_map_eq_ok, Bag.exists_project_iff]
  simp only [projected, List.forall_mem_cons, exists_value_part, Field.exists_value_hex,
    Field.MeansHex]
  constructor
  · rintro ⟨hOperatorId, -, hCi, hTac, -⟩
    exact ⟨hOperatorId, hCi, hTac⟩
  · rintro ⟨hOperatorId, hCi, hTac⟩
    exact ⟨hOperatorId, hOperatorId, hCi, hTac, List.forall_mem_nil _⟩

theorem key_mem_reported {f : Field} (hf : f ∈ projected) : f.key ∈ reported := by
  have hMem : f.key ∈ "operator-id" :: reported := List.mem_map_of_mem hf
  obtain hEq | hMem := List.mem_cons.mp hMem
  · rw [hEq]
    exact List.mem_cons_self
  · exact hMem

theorem blames_of_mem {f : Field} {raw : Bag} {e : Error} (hf : f ∈ projected)
    (h : f.value raw = .error e) : Field.Blames f.key e := by
  refine Field.blames_of_value (fun {p} hImage => ?_) h
  simp only [projected, List.mem_cons, List.not_mem_nil, or_false] at hf
  obtain rfl | rfl | rfl | rfl := hf
  · exact Field.blames_ofText (fun _ h => by cases h) hImage
  · exact Field.blames_ofText (fun _ h => by cases h) hImage
  · exact Field.blames_hex hImage
  · exact Field.blames_hex hImage

end CellLocation

namespace Location

theorem decode_eq_ok_iff {raw : Bag} {g : Generation} {l : Location} :
    decode raw g.technology = .ok l ↔ l.generation = g ∧ l.cell.Mirrors raw := by
  rw [decode_technology, map_eq_ok]
  constructor
  · rintro ⟨cell, hCell, rfl⟩
    exact ⟨rfl, CellLocation.decode_eq_ok_iff.mp hCell⟩
  · rintro ⟨rfl, hMirrors⟩
    exact ⟨l.cell, CellLocation.decode_eq_ok_iff.mpr hMirrors, rfl⟩

theorem exists_decode_iff {raw : Bag} {g : Generation} :
    (∃ l, decode raw g.technology = .ok l) ↔ CellLocation.Readable raw := by
  rw [decode_technology, exists_map_eq_ok, CellLocation.exists_decode_iff]

theorem decode_eq_unsupported_iff {raw : Bag} {t u : Technology} :
    decode raw t = .error (.unsupportedTechnology u) ↔ u = t ∧ t ≠ .lte ∧ t ≠ .nr5g := by
  refine Technology.unsupported_iff (fun _ _ => decode_of_error) fun g u h => ?_
  rw [decode_technology, map_eq_error, CellLocation.decode_eq, map_eq_error] at h
  obtain ⟨f, hf, hValue⟩ := Bag.exists_of_project_eq_error h
  exact CellLocation.blames_of_mem hf hValue

theorem decode_congr {raw other : Bag} {g : Generation}
    (h : ∀ key ∈ CellLocation.reported, other.find? key = raw.find? key) :
    decode other g.technology = decode raw g.technology := by
  have hFields : ∀ f ∈ CellLocation.projected, other.find? f.key = raw.find? f.key :=
    fun f hf => h f.key (CellLocation.key_mem_reported hf)
  rw [decode_technology, decode_technology, CellLocation.decode_eq, CellLocation.decode_eq,
    Bag.project_congr hFields]

end Location

/-- The signal record and the location record of a bag of reports. Only exactly LTE and exactly NR
have them. They are refused only for a report that counts and cannot be read; they mirror the
reports that count, hold nothing else and depend on nothing else. -/
theorem decoding_mirrors_reports (raw : Bag) :
    (∀ t u, Signal.decode raw t = .error (.unsupportedTechnology u) ↔
      u = t ∧ t ≠ .lte ∧ t ≠ .nr5g) ∧
    (∀ t u, Location.decode raw t = .error (.unsupportedTechnology u) ↔
      u = t ∧ t ≠ .lte ∧ t ≠ .nr5g) ∧
    ∀ g : Generation,
      ((∃ s, Signal.decode raw g.technology = .ok s) ↔ Signal.Readable g raw) ∧
      ((∃ l, Location.decode raw g.technology = .ok l) ↔ CellLocation.Readable raw) ∧
      (∀ s, Signal.decode raw g.technology = .ok s ↔ s.generation = g ∧ s.Mirrors raw) ∧
      (∀ l, Location.decode raw g.technology = .ok l ↔
        l.generation = g ∧ l.cell.Mirrors raw) ∧
      (∀ other : Bag, (∀ key ∈ Signal.reported g, other.find? key = raw.find? key) →
        Signal.decode other g.technology = Signal.decode raw g.technology) ∧
      ∀ other : Bag, (∀ key ∈ CellLocation.reported, other.find? key = raw.find? key) →
        Location.decode other g.technology = Location.decode raw g.technology :=
  ⟨fun _ _ => Signal.decode_eq_unsupported_iff, fun _ _ => Location.decode_eq_unsupported_iff,
    fun _ => ⟨Signal.exists_decode_iff, Location.exists_decode_iff,
      fun _ => Signal.decode_eq_ok_iff, fun _ => Location.decode_eq_ok_iff,
      fun _ => Signal.decode_congr, fun _ => Location.decode_congr⟩⟩

/-- The report of a neighbour with a signal of `-97.0`, a network identifier of two characters and a
malformed text under a key that does not count. -/
def neighbourReport : Bag :=
  .ofList [("snr", .float ⟨0xc058400000000000⟩), ("operator-id", .string "26"),
    ("ci", .string " +1A2B "), ("physical-ci", .string "none")]

theorem decoding_mirrors_reports_neighbour :
    (∃ s, Signal.decode neighbourReport .lte = .ok s ∧ s.sinr = .ok ⟨0xc058400000000000⟩ ∧
      s.rsrp = .error (.keyNotFound "rsrp") ∧ s.Mirrors neighbourReport) ∧
    (∃ l, Location.decode neighbourReport .lte = .ok l ∧ l.cell.mcc = .ok "26" ∧
      l.cell.mnc = .ok "" ∧ l.cell.ci = .ok 6699 ∧ l.cell.Mirrors neighbourReport) ∧
    Location.decode (neighbourReport.insert "physical-ci" (.bool true)) .lte =
      Location.decode neighbourReport .lte := by
  obtain ⟨-, -, h⟩ := decoding_mirrors_reports neighbourReport
  obtain ⟨-, -, hSignal, hLocation, -, hCongr⟩ := h .lte
  exact ⟨⟨_, rfl, rfl, rfl, ((hSignal _).mp rfl).2⟩,
    ⟨_, rfl, rfl, rfl, rfl, ((hLocation _).mp rfl).2⟩, hCongr _ (by decide)⟩

end ModemLink
