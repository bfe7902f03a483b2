import Mathlib.Data.List.Forall2
import ModemLink.Proofs.Radio.Records
import ModemLink.Radio.Cell

/-!
# Cell records and lists of them

A cell record is told by its type and agrees with the records that are made of the same reports on
their own. A list of records gives the cells of the types that are decoded, in order, up to the
first record that is refused.

* `CellInfo.HasType`: the type that a record reports.
* `CellInfo.Readable`, `CellInfo.Coherent`: which records of a generation can be read, and what
  their cells have in common with the signal record and the location record.
* `cell_coherent_with_records`: the decoding of one record.
-/

namespace ModemLink

open Bag (Field)

/-- The number by which the cells of a generation are reported. -/
def Generation.cellType : Generation → UInt32
  | .lte => 5
  | .nr5g => 6

namespace CellInfo

/-! ## The type of a record -/

/-- A record reports an integer of 32 bits as its type. -/
def HasType (raw : Bag) (n : UInt32) : Prop :=
  ∃ m : Int64, raw.find? "cell-type" = some (.int m) ∧ m.toInt = n.toNat

theorem generationOf?_eq_some_iff {n : UInt32} {g : Generation} :
    generationOf? n = some g ↔ n = g.cellType := by
  unfold generationOf?
  by_cases hLte : n = 5
  · subst hLte
    cases g <;> decide
  · by_cases hNr : n = 6
    · subst hNr
      cases g <;> decide
    · cases g <;> simp [Generation.cellType, hLte, hNr]

theorem get_of_hasType {raw : Bag} {n : UInt32} (h : HasType raw n) :
    raw.get .uint32 "cell-type" = .ok n := by
  obtain ⟨m, hFind, hm⟩ := h
  have hWrite : Property.int m = PropertyType.uint32.write n :=
    PropertyType.eq_write_uint32_iff.mpr ⟨m, rfl, hm⟩
  exact Bag.get_of_find?_eq_write (hWrite ▸ hFind)

/-- Why the type of a record cannot be told. -/
def typeError (raw : Bag) : Error :=
  match raw.find? "cell-type" with
  | none => .keyNotFound "cell-type"
  | some p => .typeMismatch "cell-type" .uint32 p.kind

theorem get_of_not_hasType {raw : Bag} (h : ∀ n, ¬ HasType raw n) :
    raw.get .uint32 "cell-type" = .error (typeError raw) := by
  unfold Bag.get typeError
  cases hFind : raw.find? "cell-type" with
  | none => rfl
  | some p =>
    cases hRead : PropertyType.uint32.read? p with
    | none => simp only [hRead]
    | some n =>
      obtain ⟨m, rfl, hm⟩ :=
        PropertyType.eq_write_uint32_iff.mp (PropertyType.read?_eq_some_iff.mp hRead)
      exact (h n ⟨m, hFind, hm⟩).elim

theorem decode_of_not_hasType {raw : Bag} (h : ∀ n, ¬ HasType raw n) :
    decode raw = .error (typeError raw) := by
  rw [decode, get_of_not_hasType h]
  rfl

/-- A record of a type that is not decoded is passed over, whatever else it reports. -/
theorem decode_of_foreign {raw : Bag} {n : UInt32} (h : HasType raw n)
    (hForeign : ∀ g : Generation, n ≠ g.cellType) : decode raw = .ok none := by
  have hNone : generationOf? n = none := Option.eq_none_iff_forall_ne_some.mpr fun g hg =>
    hForeign g (generationOf?_eq_some_iff.mp hg)
  simp only [decode, get_of_hasType h, hNone, bind, Except.bind]
  rfl

theorem decode_of_cellType {raw : Bag} {g : Generation} (h : HasType raw g.cellType) :
    decode raw = (decodeAs g raw).map some := by
  have hOwn : generationOf? g.cellType = some g := generationOf?_eq_some_iff.mpr rfl
  simp only [decode, get_of_hasType h, hOwn, bind, Except.bind]
  rfl

/-! ## The fields of a record -/

/-- The key under which the radio channel of a cell is reported and kept. -/
def reportedChannel : Generation → String
  | .lte => "earfcn"
  | .nr5g => "nrarfcn"

theorem channelKey_eq (g : Generation) : channelKey g = reportedChannel g := by cases g <;> rfl

/-- The fields of a cell beside those of its signal quality and its location. -/
def projected (g : Generation) : List Field :=
  [.typed .bool "serving" "serving", .hex "ci" "ci",
    .typed .uint32 (reportedChannel g) (reportedChannel g), .hex16 "physical-ci" "pci"]

theorem decodeAs_eq (g : Generation) (raw : Bag) : decodeAs g raw = do
    let values ← raw.project (projected g) ∅
    return ⟨g, values, ← Signal.decodeValues g raw, ← CellLocation.decode raw⟩ := by
  simp only [decodeAs, channelKey_eq, Bag.copy_eq, Bag.copyHex_eq, Bag.copyHex16_eq, projected,
    Bag.project, List.foldlM_cons, List.foldlM_nil, bind_assoc, pure_bind]
  rfl

theorem decodeAs_eq_ok_iff {g : Generation} {raw : Bag} {c : CellInfo} :
    decodeAs g raw = .ok c ↔ c.generation = g ∧ raw.project (projected g) ∅ = .ok c.values ∧
      Signal.decodeValues g raw = .ok c.signalValues ∧
      CellLocation.decode raw = .ok c.location := by
  rw [decodeAs_eq]
  cases raw.project (projected g) ∅ with
  | error e => exact ⟨nofun, nofun⟩
  | ok values =>
    cases Signal.decodeValues g raw with
    | error e => exact ⟨nofun, nofun⟩
    | ok signalValues =>
      cases CellLocation.decode raw with
      | error e => exact ⟨nofun, nofun⟩
      | ok location =>
        constructor
        · rintro ⟨⟩
          exact ⟨rfl, rfl, rfl, rfl⟩
        · obtain ⟨g', values', signalValues', location'⟩ := c
          rintro ⟨rfl, ⟨⟩, ⟨⟩, ⟨⟩⟩
          rfl

/-- The reports of a cell of a generation can be read: those that there are have the form that
belongs to them. -/
structure Readable (g : Generation) (raw : Bag) : Prop where
  serving : ∀ p, raw.find? "serving" = some p → ∃ b, p = .bool b
  channel : ∀ p, raw.find? (reportedChannel g) = some p →
    ∃ (n : UInt32) (m : Int64), p = .int m ∧ m.toInt = n.toNat
  physicalCi : ∀ p, raw.find? "physical-ci" = some p →
    ∃ n text, p = .string text ∧ Hex.read "physical-ci" text = .ok n ∧ n.toNat < UInt16.size
  signal : Signal.Readable g raw
  location : CellLocation.Readable raw

/-- A cell agrees with the records that are made of the same reports on their own and mirrors what
is reported of the cell itself. -/
structure Coherent (c : CellInfo) (raw : Bag) : Prop where
  signal : Signal.decode raw c.technology = .ok c.signal
  location : Location.decode raw c.technology = .ok ⟨c.generation, c.location⟩
  sameCi : c.ci = c.location.ci
  ci : raw.Mirrors .uint32 "ci"
    (fun p n => ∃ text, p = .string text ∧ Hex.read "ci" text = .ok n) c.values "ci" c.ci
  pci : raw.Mirrors .uint16 "physical-ci"
    (fun p n => ∃ text, p = .string text ∧ Hex.read "physical-ci" text = .ok n.toUInt32)
    c.values "pci" c.pci
  channel : raw.Mirrors .uint32 (reportedChannel c.generation)
    (fun p n => ∃ m : Int64, p = .int m ∧ m.toInt = n.toNat)
    c.values (reportedChannel c.generation) c.channel
  serving : match raw.find? "serving" with
    | none => c.serving = false
    | some p => p = .bool c.serving
  only : ∀ name ∉ ["serving", "ci", reportedChannel c.generation, "pci"], c.values.find? name = none

theorem exists_decodeAs_iff {g : Generation} {raw : Bag} :
    (∃ c, decodeAs g raw = .ok c) ↔ Readable g raw := by
  have hParts : (∃ c, decodeAs g raw = .ok c) ↔
      (∃ values, raw.project (projected g) ∅ = .ok values) ∧
        (∃ values, Signal.decodeValues g raw = .ok values) ∧
          ∃ location, CellLocation.decode raw = .ok location := by
    simp only [decodeAs_eq_ok_iff]
    constructor
    · rintro ⟨c, -, hValues, hSignal, hLocation⟩
      exact ⟨⟨_, hValues⟩, ⟨_, hSignal⟩, ⟨_, hLocation⟩⟩
    · rintro ⟨⟨values, hValues⟩, ⟨signalValues, hSignal⟩, ⟨location, hLocation⟩⟩
      exact ⟨⟨g, values, signalValues, location⟩, rfl, hValues, hSignal, hLocation⟩
  rw [hParts, Signal.exists_decodeValues_iff, CellLocation.exists_decode_iff,
    Bag.exists_project_iff]
  simp only [projected, List.forall_mem_cons]
  rw [Field.exists_value_typed, Field.exists_value_hex, Field.exists_value_uint32,
    Field.exists_value_hex16]
  simp only [Field.exists_meansHex16_iff]
  constructor
  · rintro ⟨⟨hServing, -, hChannel, hPhysicalCi, -⟩, hSignal, hLocation⟩
    exact ⟨hServing, hChannel, hPhysicalCi, hSignal, hLocation⟩
  · rintro ⟨hServing, hChannel, hPhysicalCi, hSignal, hLocation⟩
    exact ⟨⟨hServing, hLocation.ci, hChannel, hPhysicalCi, List.forall_mem_nil _⟩, hSignal,
      hLocation⟩

theorem nodup_name_projected (g : Generation) : ((projected g).map Field.name).Nodup := by
  cases g <;> decide

theorem coherent_of_decodeAs {g : Generation} {raw : Bag} {c : CellInfo}
    (h : decodeAs g raw = .ok c) : c.Coherent raw := by
  obtain ⟨rfl, hValues, hSignal, hLocation⟩ := decodeAs_eq_ok_iff.mp h
  obtain ⟨hFields, hRest⟩ :=
    (Bag.project_eq_ok_iff (nodup_name_projected _) fun _ _ => rfl).mp hValues
  simp only [projected, List.forall_mem_cons] at hFields
  obtain ⟨hServing, hCi, hChannel, hPci, -⟩ := hFields
  -- The identity of the cell is read twice, into two records.
  have hLocationCi := Bag.mirrors_hex.mp (CellLocation.decode_eq_ok_iff.mp hLocation).ci
  have hSameCi : c.values.find? "ci" = c.location.values.find? "ci" :=
    Except.ok.inj (hCi.symm.trans hLocationCi)
  exact {
    signal := by
      rw [technology, Signal.decode_technology, hSignal]
      rfl
    location := by
      rw [technology, Location.decode_technology, hLocation]
      rfl
    sameCi := by rw [ci, CellLocation.ci, Bag.get, Bag.get, hSameCi]
    ci := Bag.mirrors_hex.mpr hCi
    pci := Bag.mirrors_hex16.mpr hPci
    channel := by
      rw [channel, channelKey_eq]
      exact Bag.mirrors_uint32.mpr hChannel
    serving := by
      have hMirrors := Bag.mirrors_typed.mpr hServing
      unfold Bag.Mirrors at hMirrors
      unfold serving Bag.getD
      cases hFind : raw.find? "serving" with
      | none =>
        rw [hFind] at hMirrors
        rw [hMirrors.2]
      | some p =>
        rw [hFind] at hMirrors
        obtain ⟨b, rfl, -, hReading⟩ := hMirrors
        rw [hReading]
        rfl
    only := hRest }

end CellInfo

/-- A cell record is refused if its type cannot be told and passed over if its type is not decoded.
A record of a decoded type gives a cell exactly if its reports can be read, and the cell then agrees
with the signal record and the location record of the same reports. -/
theorem cell_coherent_with_records (raw : Bag) :
    ((∀ n, ¬ CellInfo.HasType raw n) → CellInfo.decode raw = .error (CellInfo.typeError raw)) ∧
    (∀ n, CellInfo.HasType raw n → (∀ g : Generation, n ≠ g.cellType) →
      CellInfo.decode raw = .ok none) ∧
    ∀ g : Generation, CellInfo.HasType raw g.cellType →
      CellInfo.decode raw ≠ .ok none ∧
      ((∃ c, CellInfo.decode raw = .ok (some c)) ↔ CellInfo.Readable g raw) ∧
      ∀ c, CellInfo.decode raw = .ok (some c) → c.generation = g ∧ c.Coherent raw := by
  refine ⟨CellInfo.decode_of_not_hasType, fun n => CellInfo.decode_of_foreign,
    fun g hType => ?_⟩
  have hDecode : ∀ c, CellInfo.decode raw = .ok (some c) ↔ CellInfo.decodeAs g raw = .ok c :=
    fun c => by simp only [CellInfo.decode_of_cellType hType, map_eq_ok, Option.some.injEq,
      exists_eq_right]
  refine ⟨?_, ?_, fun c hc => ?_⟩
  · rw [CellInfo.decode_of_cellType hType]
    cases CellInfo.decodeAs g raw <;> nofun
  · simp only [hDecode, CellInfo.exists_decodeAs_iff]
  · have hCell := (hDecode c).mp hc
    exact ⟨(CellInfo.decodeAs_eq_ok_iff.mp hCell).1, CellInfo.coherent_of_decodeAs hCell⟩

/-- The report of a serving cell. -/
def servingReport : Bag :=
  .ofList [("cell-type", .int 5), ("serving", .bool true), ("ci", .string "1A2B"),
    ("earfcn", .int 1300), ("physical-ci", .string "1F")]

/-- The report of a neighbouring cell of NR. Under the key of LTE channels it has no number. -/
def nrReport : Bag :=
  .ofList [("cell-type", .int 6), ("nrarfcn", .int 632448), ("earfcn", .string "none"),
    ("physical-ci", .string "3EF")]

theorem cell_coherent_with_records_serving :
    (∃ c, CellInfo.decode servingReport = .ok (some c) ∧ c.Coherent servingReport ∧
      c.location.ci = .ok 6699 ∧ c.channel = .ok 1300) ∧
    (∃ c, CellInfo.decode nrReport = .ok (some c) ∧ c.Coherent nrReport ∧
      c.ci = .error (.keyNotFound "ci") ∧ c.channel = .ok 632448) ∧
    CellInfo.decode (servingReport.insert "cell-type" (.int 2)) = .ok none ∧
    CellInfo.decode (servingReport.insert "cell-type" (.int (-1))) =
      .error (.typeMismatch "cell-type" .uint32 .int) := by
  obtain ⟨-, -, hServing⟩ := cell_coherent_with_records servingReport
  obtain ⟨-, -, hCoherent⟩ := hServing .lte ⟨5, rfl, rfl⟩
  obtain ⟨-, -, hNeighbour⟩ := cell_coherent_with_records nrReport
  obtain ⟨-, -, hOtherCoherent⟩ := hNeighbour .nr5g ⟨6, rfl, rfl⟩
  obtain ⟨-, hForeign, -⟩ := cell_coherent_with_records (servingReport.insert "cell-type" (.int 2))
  obtain ⟨hUntyped, -, -⟩ :=
    cell_coherent_with_records (servingReport.insert "cell-type" (.int (-1)))
  have hOther : ∀ g : Generation, (2 : UInt32) ≠ g.cellType := by
    rintro (_ | _) <;> decide
  have hNegative : ∀ n, ¬ CellInfo.HasType (servingReport.insert "cell-type" (.int (-1))) n := by
    rintro n ⟨m, hFind, hm⟩
    cases hFind
    have hNonneg := Int.natCast_nonneg n.toNat
    rw [← hm] at hNonneg
    exact absurd hNonneg (by decide)
  exact ⟨⟨_, rfl, (hCoherent _ rfl).2, rfl, rfl⟩, ⟨_, rfl, (hOtherCoherent _ rfl).2, rfl, rfl⟩,
    hForeign 2 ⟨2, rfl, rfl⟩ hOther, hUntyped hNegative⟩

/-! ## Lists of records -/

namespace CellInfo

/-- A record reports a type that is not decoded. -/
def IsForeign (raw : Bag) : Prop :=
  ∃ n, HasType raw n ∧ ∀ g : Generation, n ≠ g.cellType

theorem decode_eq_none_iff {raw : Bag} : decode raw = .ok none ↔ IsForeign raw := by
  constructor
  · intro h
    by_cases hType : ∃ n, HasType raw n
    · obtain ⟨n, hType⟩ := hType
      refine ⟨n, hType, ?_⟩
      rintro g rfl
      rw [decode_of_cellType hType, map_eq_ok] at h
      obtain ⟨c, -, hSome⟩ := h
      cases hSome
    · rw [decode_of_not_hasType (not_exists.mp hType)] at h
      cases h
  · rintro ⟨n, hType, hForeign⟩
    exact decode_of_foreign hType hForeign

instance : DecidablePred IsForeign := fun raw =>
  decidable_of_iff ((decode raw).toOption = some none) (by
    rw [← decode_eq_none_iff]
    cases decode raw <;> simp [Except.toOption])

theorem decodeAll_cons_of_ok {r : Bag} {rest : List Bag} {o : Option CellInfo}
    (h : decode r = .ok o) : decodeAll (r :: rest) = (decodeAll rest).map (o.toList ++ ·) := by
  rw [decodeAll, decodeAll, List.mapM_cons, h]
  cases hRest : rest.mapM decode with
  | error e => rfl
  | ok out => cases o <;> rfl

theorem decodeAll_cons_of_error {r : Bag} {rest : List Bag} {e : Error}
    (h : decode r = .error e) : decodeAll (r :: rest) = .error e := by
  rw [decodeAll, List.mapM_cons, h]
  rfl

theorem exists_decodeAll_iff {records : List Bag} :
    (∃ out, decodeAll records = .ok out) ↔ ∀ r ∈ records, ∃ o, decode r = .ok o := by
  induction records with
  | nil => exact ⟨nofun, fun _ => ⟨[], rfl⟩⟩
  | cons r rest ih =>
    rw [List.forall_mem_cons, ← ih]
    cases hRecord : decode r with
    | error e =>
      rw [decodeAll_cons_of_error hRecord]
      exact ⟨nofun, nofun⟩
    | ok o =>
      rw [decodeAll_cons_of_ok hRecord, exists_map_eq_ok]
      exact ⟨fun h => ⟨⟨o, rfl⟩, h⟩, And.right⟩

/-- A list depends on the records of decoded types alone. -/
theorem decodeAll_filter (records : List Bag) :
    decodeAll (records.filter fun r => ¬ IsForeign r) = decodeAll records := by
  induction records with
  | nil => rfl
  | cons r rest ih =>
    by_cases hForeign : IsForeign r
    · rw [List.filter_cons_of_neg (by simpa using hForeign), ih,
        decodeAll_cons_of_ok (decode_eq_none_iff.mpr hForeign)]
      cases decodeAll rest <;> rfl
    · rw [List.filter_cons_of_pos (by simpa using hForeign)]
      cases hRecord : decode r with
      | error e => rw [decodeAll_cons_of_error hRecord, decodeAll_cons_of_error hRecord]
      | ok o => rw [decodeAll_cons_of_ok hRecord, decodeAll_cons_of_ok hRecord, ih]

theorem decodeAll_append (records more : List Bag) :
    decodeAll (records ++ more) =
      match decodeAll records, decodeAll more with
      | .ok out, .ok rest => .ok (out ++ rest)
      | .ok _, .error e => .error e
      | .error e, _ => .error e := by
  induction records with
  | nil =>
    rw [List.nil_append]
    cases decodeAll more <;> rfl
  | cons r rest ih =>
    rw [List.cons_append]
    cases hRecord : decode r with
    | error e => rw [decodeAll_cons_of_error hRecord, decodeAll_cons_of_error hRecord]
    | ok o =>
      rw [decodeAll_cons_of_ok hRecord, decodeAll_cons_of_ok hRecord, ih]
      cases decodeAll rest with
      | error e => rfl
      | ok out =>
        cases decodeAll more with
        | error e => rfl
        | ok rest => exact congrArg Except.ok (List.append_assoc _ _ _).symm

/-- A list of records of decoded types gives one cell for each. -/
theorem decodeAll_eq_ok_iff_of_own {records : List Bag} (hOwn : ∀ r ∈ records, ¬ IsForeign r)
    {out : List CellInfo} : decodeAll records = .ok out ↔
      List.Forall₂ (fun r c => decode r = .ok (some c)) records out := by
  induction records generalizing out with
  | nil =>
    rw [List.forall₂_nil_left_iff]
    exact ⟨fun h => (Except.ok.inj h).symm, fun h => congrArg Except.ok h.symm⟩
  | cons r rest ih =>
    obtain ⟨hFirst, hOwn⟩ := List.forall_mem_cons.mp hOwn
    rw [List.forall₂_cons_left_iff]
    cases hRecord : decode r with
    | error e =>
      rw [decodeAll_cons_of_error hRecord]
      exact ⟨nofun, fun ⟨_, _, h, _⟩ => nomatch h⟩
    | ok o =>
      cases o with
      | none => exact (hFirst (decode_eq_none_iff.mp hRecord)).elim
      | some c =>
        rw [decodeAll_cons_of_ok hRecord, map_eq_ok]
        constructor
        · rintro ⟨cells, hCells, rfl⟩
          exact ⟨c, cells, rfl, (ih hOwn).mp hCells, rfl⟩
        · rintro ⟨_, cells, ⟨⟩, hCells, rfl⟩
          exact ⟨cells, (ih hOwn).mpr hCells, rfl⟩

/-- A list is refused for the first record that is, with the error of that one. -/
theorem decodeAll_eq_error_iff {records : List Bag} {e : Error} :
    decodeAll records = .error e ↔ ∃ before bad after, records = before ++ bad :: after ∧
      (∀ r ∈ before, ∃ o, decode r = .ok o) ∧ decode bad = .error e := by
  constructor
  · intro h
    induction records with
    | nil => cases h
    | cons r rest ih =>
      cases hRecord : decode r with
      | error e' =>
        rw [decodeAll_cons_of_error hRecord] at h
        cases h
        exact ⟨[], r, rest, rfl, List.forall_mem_nil _, hRecord⟩
      | ok o =>
        rw [decodeAll_cons_of_ok hRecord, map_eq_error] at h
        obtain ⟨before, bad, after, rfl, hBefore, hBad⟩ := ih h
        exact ⟨r :: before, bad, after, rfl, List.forall_mem_cons.mpr ⟨⟨o, hRecord⟩, hBefore⟩,
          hBad⟩
  · rintro ⟨before, bad, after, rfl, hBefore, hBad⟩
    obtain ⟨out, hOut⟩ := exists_decodeAll_iff.mpr hBefore
    rw [decodeAll_append, hOut, decodeAll_cons_of_error hBad]

end CellInfo

/-- A list of records gives a cell for each record of a decoded type, in their order, unless a
record is refused; the first of these then decides. Lists one after the other give their cells one
after the other, and records of other types count for nothing. -/
theorem cells_in_order (records : List Bag) :
    ((∃ out, CellInfo.decodeAll records = .ok out) ↔
      ∀ r ∈ records, ∃ o, CellInfo.decode r = .ok o) ∧
    (∀ out, CellInfo.decodeAll records = .ok out ↔
      List.Forall₂ (fun r c => CellInfo.decode r = .ok (some c))
        (records.filter fun r => ¬ CellInfo.IsForeign r) out) ∧
    (∀ e, CellInfo.decodeAll records = .error e ↔
      ∃ before bad after, records = before ++ bad :: after ∧
        (∀ r ∈ before, ∃ o, CellInfo.decode r = .ok o) ∧ CellInfo.decode bad = .error e) ∧
    (∀ more, CellInfo.decodeAll (records ++ more) =
      match CellInfo.decodeAll records, CellInfo.decodeAll more with
      | .ok out, .ok rest => .ok (out ++ rest)
      | .ok _, .error e => .error e
      | .error e, _ => .error e) ∧
    ∀ others : List Bag, (others.filter fun r => ¬ CellInfo.IsForeign r) =
        (records.filter fun r => ¬ CellInfo.IsForeign r) →
      CellInfo.decodeAll others = CellInfo.decodeAll records := by
  refine ⟨CellInfo.exists_decodeAll_iff, fun out => ?_, fun e => CellInfo.decodeAll_eq_error_iff,
    CellInfo.decodeAll_append records, fun others hSame => ?_⟩
  · rw [← CellInfo.decodeAll_filter, CellInfo.decodeAll_eq_ok_iff_of_own]
    intro r hr
    simpa using (List.mem_filter.mp hr).2
  · rw [← CellInfo.decodeAll_filter others, hSame, CellInfo.decodeAll_filter]

theorem cells_in_order_serving :
    let foreign := (servingReport.insert "cell-type" (.int 2)).insert "ci" (.bool true)
    CellInfo.decodeAll [foreign, servingReport, foreign] = CellInfo.decodeAll [servingReport] ∧
      (∃ c, CellInfo.decodeAll [servingReport] = .ok [c] ∧ c.pci = .ok 31) ∧
      CellInfo.decodeAll [servingReport, ∅, foreign] = .error (.keyNotFound "cell-type") := by
  obtain ⟨-, hCells, -, -, hSame⟩ := cells_in_order [servingReport]
  obtain ⟨-, -, hError, -⟩ := cells_in_order
    [servingReport, ∅, (servingReport.insert "cell-type" (.int 2)).insert "ci" (.bool true)]
  refine ⟨hSame _ (by decide), ⟨_, (hCells _).mpr (.cons rfl .nil), rfl⟩, ?_⟩
  exact (hError _).mpr ⟨[servingReport], ∅, _, rfl, List.forall_mem_singleton.mpr ⟨_, rfl⟩, rfl⟩

end ModemLink
