import ModemLink.Radio.Hex

/-!
# Records of reported properties

A record is made from a bag of reported properties field by field. What is reported under one key is
kept under a name of its own, perhaps as another property; what is not reported is not kept.

* `Bag.Field`, `Bag.project`: a field, and the record of several.
* `project_eq_ok_iff`: a record has under the name of each field what the field makes of the report,
  and nothing else; `exists_project_iff` and `project_congr` say when there is one and what it
  depends on.
* `Field.typed`, `Field.ofText`, `Field.hex`, `Field.hex16`: the fields that occur, with the copies
  that they stand for.
* `Field.Blames`: an error of a field names the key of its report.
* `Bag.Mirrors`: a record has under a name what is reported under a key.
-/

namespace ModemLink

/-! ## Results -/

section

variable {ε α β : Type} {x : Except ε α} {f : α → β} {b : β} {e : ε}

theorem map_eq_ok : x.map f = .ok b ↔ ∃ a, x = .ok a ∧ f a = b := by
  cases x <;> simp [Except.map]

theorem map_eq_error : x.map f = .error e ↔ x = .error e := by
  cases x <;> simp [Except.map]

theorem exists_map_eq_ok : (∃ b, x.map f = .ok b) ↔ ∃ a, x = .ok a := by
  cases x <;> simp [Except.map]

end

/-! ## Reading and writing as a type -/

namespace PropertyType

theorem int_ofNat_toNat {n : Int64} (hn : 0 ≤ n.toInt) : Int64.ofNat n.toInt.toNat = n := by
  have hLt := n.toInt_lt
  rw [← Int64.toInt_inj, Int64.toInt_ofNat_of_lt (by omega)]
  omega

/-- A property that can be read as a type is the one that holds the value read. -/
theorem write_of_read? {t : PropertyType} {p : Property} {v : t.Carrier} (h : t.read? p = some v) :
    t.write v = p := by
  cases t <;> cases p <;> try cases h
  case bool | float | string | int64 => rfl
  case path s =>
    obtain ⟨hPath, hRead⟩ := Option.dite_none_right_eq_some.mp h
    cases hRead
    rfl
  case int32 n =>
    obtain ⟨⟨hLow, hHigh⟩, hRead⟩ := Option.ite_none_right_eq_some.mp h
    cases hRead
    refine congrArg Property.int ?_
    rw [Int32.toInt_ofInt_of_le hLow (Int.lt_of_le_of_lt hHigh (by decide)), Int64.ofInt_toInt]
  case uint32 n =>
    obtain ⟨⟨hLow, hHigh⟩, hRead⟩ := Option.ite_none_right_eq_some.mp h
    cases hRead
    refine congrArg Property.int ?_
    rw [UInt32.toNat_ofNat_of_lt' (by omega), int_ofNat_toNat hLow]
  case uint16 n =>
    obtain ⟨⟨hLow, hHigh⟩, hRead⟩ := Option.ite_none_right_eq_some.mp h
    cases hRead
    refine congrArg Property.int ?_
    rw [UInt16.toNat_ofNat_of_lt' (by omega), int_ofNat_toNat hLow]
  case uint8 n =>
    obtain ⟨⟨hLow, hHigh⟩, hRead⟩ := Option.ite_none_right_eq_some.mp h
    cases hRead
    refine congrArg Property.int ?_
    rw [UInt8.toNat_ofNat_of_lt' (by omega), int_ofNat_toNat hLow]

theorem eq_write_uint32_iff {p : Property} {n : UInt32} :
    p = PropertyType.uint32.write n ↔ ∃ m : Int64, p = .int m ∧ m.toInt = n.toNat := by
  have hWide : (Int64.ofNat n.toNat).toInt = n.toNat := Int64.toInt_ofNat_of_lt (by
    have hLt := n.toNat_lt
    omega)
  constructor
  · rintro rfl
    exact ⟨_, rfl, hWide⟩
  · rintro ⟨m, rfl, hm⟩
    exact congrArg Property.int (Int64.toInt_inj.mp (hm.trans hWide.symm))

theorem read?_eq_some_iff {t : PropertyType} {p : Property} {v : t.Carrier} :
    t.read? p = some v ↔ p = t.write v :=
  ⟨fun h => (write_of_read? h).symm, fun h => h ▸ read?_write t v⟩

end PropertyType

namespace Bag

/-! ## Fields -/

/-- A field of a record: the key under which it is reported, the name under which it is kept, and
what a property that is reported is kept as. -/
structure Field where
  key : String
  name : String
  image : Property → Except Error Property

/-- What a record keeps of a field, if it is reported. -/
def Field.value (f : Field) (raw : Bag) : Except Error (Option Property) :=
  match raw.find? f.key with
  | none => .ok none
  | some p => (f.image p).map some

/-- The bag with a property under a name, if there is one. -/
def keep (target : Bag) (name : String) : Option Property → Bag
  | none => target
  | some p => target.insert name p

/-- The bag `target` with the given fields of the reported properties `raw`. -/
def project (raw : Bag) (fields : List Field) (target : Bag) : Except Error Bag :=
  fields.foldlM (fun values f => (f.value raw).map (values.keep f.name)) target

namespace Field

variable {f : Field} {raw : Bag} {p q : Property}

theorem value_of_find?_eq_none (h : raw.find? f.key = none) : f.value raw = .ok none := by
  rw [value, h]

theorem value_of_find?_eq_some (h : raw.find? f.key = some p) :
    f.value raw = (f.image p).map some := by
  rw [value, h]

/-- A field has a value unless what is reported means none. -/
theorem exists_value_iff {α : Type} {means : Property → α → Prop} {write : α → Property}
    (hImage : ∀ {p q}, f.image p = .ok q ↔ ∃ a, means p a ∧ q = write a) :
    (∃ o, f.value raw = .ok o) ↔ ∀ p, raw.find? f.key = some p → ∃ a, means p a := by
  cases hRaw : raw.find? f.key with
  | none => exact ⟨fun _ => nofun, fun _ => ⟨none, value_of_find?_eq_none hRaw⟩⟩
  | some p =>
    rw [value_of_find?_eq_some hRaw]
    constructor
    · rintro ⟨o, hValue⟩ _ ⟨⟩
      cases hKept : f.image p with
      | error e =>
        rw [hKept] at hValue
        cases hValue
      | ok q =>
        obtain ⟨a, hMeans, -⟩ := hImage.mp hKept
        exact ⟨a, hMeans⟩
    · intro h
      obtain ⟨a, hMeans⟩ := h p rfl
      exact ⟨some (write a), by rw [hImage.mpr ⟨a, hMeans, rfl⟩]; rfl⟩

end Field

theorem find?_keep_self {target : Bag} {name : String} (h : target.find? name = none)
    (o : Option Property) : (target.keep name o).find? name = o := by
  cases o with
  | none => exact h
  | some p => exact target.find?_insert_self name p

theorem find?_keep_of_ne {target : Bag} {name other : String} (h : other ≠ name)
    (o : Option Property) : (target.keep name o).find? other = target.find? other := by
  cases o with
  | none => rfl
  | some p => exact target.find?_insert_of_ne h p

/-! ## Records -/

section

variable {raw target b : Bag} {fields : List Field}

theorem project_cons_of_ok {f : Field} {o : Option Property} (h : f.value raw = .ok o) :
    raw.project (f :: fields) target = raw.project fields (target.keep f.name o) := by
  rw [project, List.foldlM_cons, h]
  rfl

theorem project_cons_of_error {f : Field} {e : Error} (h : f.value raw = .error e) :
    raw.project (f :: fields) target = .error e := by
  rw [project, List.foldlM_cons, h]
  rfl

/-- There is a record if every field has a value. -/
theorem exists_project_iff :
    (∃ b, raw.project fields target = .ok b) ↔ ∀ f ∈ fields, ∃ o, f.value raw = .ok o := by
  induction fields generalizing target with
  | nil => exact ⟨nofun, fun _ => ⟨target, rfl⟩⟩
  | cons f rest ih =>
    rw [List.forall_mem_cons]
    cases hValue : f.value raw with
    | error e =>
      rw [project_cons_of_error hValue]
      exact ⟨nofun, nofun⟩
    | ok o =>
      rw [project_cons_of_ok hValue, ih]
      exact ⟨fun h => ⟨⟨o, rfl⟩, h⟩, And.right⟩

theorem exists_of_project_eq_error {e : Error} (h : raw.project fields target = .error e) :
    ∃ f ∈ fields, f.value raw = .error e := by
  induction fields generalizing target with
  | nil => cases h
  | cons f rest ih =>
    cases hValue : f.value raw with
    | error e' =>
      rw [project_cons_of_error hValue] at h
      cases h
      exact ⟨f, List.mem_cons_self, hValue⟩
    | ok o =>
      rw [project_cons_of_ok hValue] at h
      obtain ⟨g, hg, hError⟩ := ih h
      exact ⟨g, List.mem_cons_of_mem f hg, hError⟩

/-- A record holds the values of its fields and is otherwise as it was. -/
theorem project_eq_ok_iff (hNames : (fields.map Field.name).Nodup)
    (hFree : ∀ f ∈ fields, target.find? f.name = none) :
    raw.project fields target = .ok b ↔
      (∀ f ∈ fields, f.value raw = .ok (b.find? f.name)) ∧
        ∀ name ∉ fields.map Field.name, b.find? name = target.find? name := by
  induction fields generalizing target with
  | nil =>
    constructor
    · intro h
      cases h
      exact ⟨nofun, fun _ _ => rfl⟩
    · exact fun h => congrArg Except.ok (ext_find? fun name => (h.2 name nofun).symm)
  | cons f rest ih =>
    obtain ⟨hNew, hNames⟩ := List.nodup_cons.mp hNames
    obtain ⟨hFirst, hFree⟩ := List.forall_mem_cons.mp hFree
    rw [List.forall_mem_cons]
    cases hValue : f.value raw with
    | error e =>
      rw [project_cons_of_error hValue]
      exact ⟨nofun, fun h => nomatch h.1.1⟩
    | ok o =>
      -- The names differ, so what this field keeps is not in the way of the others.
      have hOther : ∀ g ∈ rest, (target.keep f.name o).find? g.name = none := fun g hg => by
        have hNe : g.name ≠ f.name := fun hEq => hNew (hEq ▸ List.mem_map_of_mem hg)
        rw [find?_keep_of_ne hNe, hFree g hg]
      rw [project_cons_of_ok hValue, ih hNames hOther]
      constructor
      · rintro ⟨hValues, hRest⟩
        refine ⟨⟨?_, hValues⟩, fun name hName => ?_⟩
        · rw [hRest f.name hNew, find?_keep_self hFirst]
        · obtain ⟨hNe, hName⟩ := not_or.mp (mt List.mem_cons.mpr hName)
          rw [hRest name hName, find?_keep_of_ne hNe]
      · rintro ⟨⟨hOwn, hValues⟩, hRest⟩
        refine ⟨hValues, fun name hName => ?_⟩
        by_cases hEq : name = f.name
        · rw [hEq, find?_keep_self hFirst]
          exact (Except.ok.inj hOwn).symm
        · rw [find?_keep_of_ne hEq]
          exact hRest name fun hMem => (List.mem_cons.mp hMem).elim hEq hName

/-- A record depends on what is reported under the keys of its fields alone. -/
theorem project_congr {other : Bag} (h : ∀ f ∈ fields, other.find? f.key = raw.find? f.key) :
    other.project fields target = raw.project fields target := by
  induction fields generalizing target with
  | nil => rfl
  | cons f rest ih =>
    obtain ⟨hFirst, hRest⟩ := List.forall_mem_cons.mp h
    have hValue : f.value other = f.value raw := by rw [Field.value, Field.value, hFirst]
    cases hRaw : f.value raw with
    | error e => rw [project_cons_of_error (hValue.trans hRaw), project_cons_of_error hRaw]
    | ok o => rw [project_cons_of_ok (hValue.trans hRaw), project_cons_of_ok hRaw, ih hRest]

end

/-! ## The fields that occur -/

namespace Field

/-- A field that is kept as it is reported, as a value of a type. -/
def typed (t : PropertyType) (key name : String) : Field where
  key
  name
  image p :=
    match t.read? p with
    | some v => .ok (t.write v)
    | none => .error (.typeMismatch key t p.kind)

/-- A field that is reported as a text. -/
def ofText (key name : String) (image : String → Except Error Property) : Field where
  key
  name
  image p :=
    match PropertyType.string.read? p with
    | some text => image text
    | none => .error (.typeMismatch key .string p.kind)

/-- A hexadecimal field. -/
def hex (key name : String) : Field :=
  ofText key name fun text => (Hex.read key text).map PropertyType.uint32.write

/-- A hexadecimal field of at most 16 bits. -/
def hex16 (key name : String) : Field :=
  ofText key name fun text => (Hex.read key text).bind fun n =>
    if n.toNat < UInt16.size then .ok (PropertyType.uint16.write n.toUInt16)
    else .error (.invalidHex key text)

/-- A property is the text of a hexadecimal number. -/
def MeansHex (key : String) (p : Property) (n : UInt32) : Prop :=
  ∃ text, p = .string text ∧ Hex.read key text = .ok n

/-- A property is the text of a hexadecimal number of at most 16 bits. -/
def MeansHex16 (key : String) (p : Property) (n : UInt16) : Prop :=
  MeansHex key p n.toUInt32

theorem toUInt32_toUInt16 {n : UInt32} (h : n.toNat < UInt16.size) : n.toUInt16.toUInt32 = n := by
  rw [← UInt32.toNat_inj, UInt16.toNat_toUInt32, UInt32.toNat_toUInt16, Nat.mod_eq_of_lt h]

variable {t : PropertyType} {key name : String} {raw : Bag} {p q : Property} {e : Error}

theorem exists_meansHex16_iff : (∃ n, MeansHex16 key p n) ↔
    ∃ n text, p = .string text ∧ Hex.read key text = .ok n ∧ n.toNat < UInt16.size := by
  constructor
  · rintro ⟨n, text, hText, hRead⟩
    exact ⟨n.toUInt32, text, hText, hRead, n.toNat_toUInt32.symm ▸ n.toNat_lt⟩
  · rintro ⟨n, text, hText, hRead, hLt⟩
    exact ⟨n.toUInt16, text, hText, (toUInt32_toUInt16 hLt).symm ▸ hRead⟩

theorem image_typed : (typed t key name).image p = .ok q ↔ ∃ v, p = t.write v ∧ q = t.write v := by
  have hMeans : ∀ v, p = t.write v ↔ t.read? p = some v :=
    fun _ => PropertyType.read?_eq_some_iff.symm
  simp only [typed, hMeans]
  cases t.read? p <;> simp [eq_comm]

theorem image_ofText {image : String → Except Error Property} :
    (ofText key name image).image p = .ok q ↔ ∃ text, p = .string text ∧ image text = .ok q := by
  cases p <;> simp [ofText, PropertyType.read?]

theorem image_hex : (hex key name).image p = .ok q ↔
    ∃ n, MeansHex key p n ∧ q = PropertyType.uint32.write n := by
  simp only [hex, image_ofText, MeansHex]
  constructor
  · rintro ⟨text, hText, hImage⟩
    cases hRead : Hex.read key text with
    | error e =>
      rw [hRead] at hImage
      cases hImage
    | ok n =>
      rw [hRead] at hImage
      exact ⟨n, ⟨text, hText, hRead⟩, (Except.ok.inj hImage).symm⟩
  · rintro ⟨n, ⟨text, hText, hRead⟩, rfl⟩
    exact ⟨text, hText, by rw [hRead]; rfl⟩

theorem image_hex16 : (hex16 key name).image p = .ok q ↔
    ∃ n, MeansHex16 key p n ∧ q = PropertyType.uint16.write n := by
  simp only [hex16, image_ofText, MeansHex16, MeansHex]
  constructor
  · rintro ⟨text, hText, hImage⟩
    cases hRead : Hex.read key text with
    | error e =>
      rw [hRead] at hImage
      cases hImage
    | ok n =>
      rw [hRead] at hImage
      by_cases hLt : n.toNat < UInt16.size
      · refine ⟨n.toUInt16, ⟨text, hText, (toUInt32_toUInt16 hLt).symm ▸ hRead⟩, ?_⟩
        exact (Except.ok.inj ((if_pos hLt).symm.trans hImage)).symm
      · cases (if_neg hLt).symm.trans hImage
  · rintro ⟨n, ⟨text, hText, hRead⟩, rfl⟩
    refine ⟨text, hText, ?_⟩
    rw [hRead]
    exact (if_pos (by simpa using n.toNat_lt)).trans (by simp)

theorem exists_value_typed : (∃ o, (typed t key name).value raw = .ok o) ↔
    ∀ p, raw.find? key = some p → ∃ v, p = t.write v :=
  exists_value_iff image_typed

theorem exists_value_uint32 : (∃ o, (typed .uint32 key name).value raw = .ok o) ↔
    ∀ p, raw.find? key = some p → ∃ (n : UInt32) (m : Int64), p = .int m ∧ m.toInt = n.toNat := by
  simp only [exists_value_typed, PropertyType.eq_write_uint32_iff]

theorem exists_value_hex : (∃ o, (hex key name).value raw = .ok o) ↔
    ∀ p, raw.find? key = some p → ∃ n, MeansHex key p n :=
  exists_value_iff (f := hex key name) image_hex

theorem exists_value_hex16 : (∃ o, (hex16 key name).value raw = .ok o) ↔
    ∀ p, raw.find? key = some p → ∃ n, MeansHex16 key p n :=
  exists_value_iff (f := hex16 key name) image_hex16

/-! ### What an error says -/

/-- An error is about what is reported under a key. -/
def Blames (key : String) : Error → Prop
  | .typeMismatch k _ _ => k = key
  | .invalidHex k _ => k = key
  | _ => False

theorem blames_of_value {f : Field} (hImage : ∀ {p}, f.image p = .error e → Blames f.key e)
    (h : f.value raw = .error e) : Blames f.key e := by
  cases hRaw : raw.find? f.key with
  | none =>
    rw [value_of_find?_eq_none hRaw] at h
    cases h
  | some p =>
    rw [value_of_find?_eq_some hRaw] at h
    exact hImage (map_eq_error.mp h)

theorem blames_typed (h : (typed t key name).image p = .error e) : Blames key e := by
  unfold typed at h
  dsimp only at h
  split at h
  · cases h
  · cases h
    rfl

theorem blames_ofText {image : String → Except Error Property}
    (hImage : ∀ text, image text = .error e → Blames key e)
    (h : (ofText key name image).image p = .error e) : Blames key e := by
  unfold ofText at h
  dsimp only at h
  split at h
  · exact hImage _ h
  · cases h
    rfl

theorem blames_read {text : String} (h : Hex.read key text = .error e) : Blames key e := by
  unfold Hex.read at h
  split at h
  · cases h
  · cases h
    rfl

theorem blames_hex (h : (hex key name).image p = .error e) : Blames key e := by
  refine blames_ofText (fun text hError => ?_) h
  cases hRead : Hex.read key text with
  | error e' =>
    rw [hRead] at hError
    cases hError
    exact blames_read hRead
  | ok n =>
    rw [hRead] at hError
    cases hError

end Field

section

variable (target raw : Bag) (t : PropertyType) (key name : String)

theorem copyAs_eq : target.copyAs raw t key name =
    ((Field.typed t key name).value raw).map fun o => (target.keep name o, o.isSome) := by
  simp only [copyAs, getOptional?, Field.value, Field.typed]
  cases raw.find? key with
  | none => rfl
  | some p =>
    cases hRead : t.read? p <;> simp only [hRead] <;> rfl

theorem copy_eq : target.copy raw t key =
    ((Field.typed t key key).value raw).map (target.keep key) := by
  rw [copy, copyAs_eq]
  cases (Field.typed t key key).value raw <;> rfl

/-- A reading of a text that is kept, if there is one, as a property made from it. -/
theorem getOptional?_string_bind {image : String → Except Error Property}
    {next : Option String → Except Error Bag} (hNone : next none = .ok target)
    (hSome : ∀ text, next (some text) = (image text).map (target.insert name)) :
    raw.getOptional? .string key >>= next =
      ((Field.ofText key name image).value raw).map (target.keep name) := by
  simp only [getOptional?, Field.value, Field.ofText]
  cases raw.find? key with
  | none => exact hNone
  | some p =>
    dsimp only
    cases PropertyType.string.read? p with
    | none => rfl
    | some text =>
      refine (hSome text).trans ?_
      dsimp only
      cases image text <;> rfl

theorem copyHex_eq : target.copyHex raw key name =
    ((Field.hex key name).value raw).map (target.keep name) := by
  rw [copyHex_eq_bind]
  refine target.getOptional?_string_bind raw key name rfl fun text => ?_
  dsimp only
  cases Hex.read key text <;> rfl

theorem copyHex16_eq : target.copyHex16 raw key name =
    ((Field.hex16 key name).value raw).map (target.keep name) := by
  rw [copyHex16_eq_bind]
  refine target.getOptional?_string_bind raw key name rfl fun text => ?_
  dsimp only
  cases Hex.read key text with
  | error e => rfl
  | ok n =>
    change (if _ then _ else _) = Except.map _ (if _ then _ else _)
    split <;> rfl

end

/-! ## Mirrored reports -/

theorem get_of_find?_eq_none {b : Bag} {name : String} (h : b.find? name = none)
    (t : PropertyType) : b.get t name = .error (.keyNotFound name) := by
  rw [get, h]

theorem get_of_find?_eq_write {b : Bag} {name : String} {t : PropertyType} {a : t.Carrier}
    (h : b.find? name = some (t.write a)) : b.get t name = .ok a := by
  rw [get, h]
  simp only [t.read?_write]

/-- A record mirrors under `name` what is reported in `raw` under `key`: it has nothing there if
there is no report, and else the value that the report means. In the one case `reading` fails for
the lack of it, in the other it gives that value. -/
def Mirrors (raw : Bag) (t : PropertyType) (key : String) (means : Property → t.Carrier → Prop)
    (record : Bag) (name : String) (reading : Except Error t.Carrier) : Prop :=
  match raw.find? key with
  | none => record.find? name = none ∧ reading = .error (.keyNotFound name)
  | some p => ∃ a, means p a ∧ record.find? name = some (t.write a) ∧ reading = .ok a

/-- A record mirrors a report if it has the value of its field. -/
theorem mirrors_iff {raw record : Bag} {f : Field} {t : PropertyType}
    {means : Property → t.Carrier → Prop}
    (hImage : ∀ {p q}, f.image p = .ok q ↔ ∃ a, means p a ∧ q = t.write a) :
    raw.Mirrors t f.key means record f.name (record.get t f.name) ↔
      f.value raw = .ok (record.find? f.name) := by
  unfold Mirrors
  cases hRaw : raw.find? f.key with
  | none =>
    rw [Field.value_of_find?_eq_none hRaw, Except.ok.injEq]
    exact ⟨fun h => h.1.symm, fun h => ⟨h.symm, get_of_find?_eq_none h.symm t⟩⟩
  | some p =>
    rw [Field.value_of_find?_eq_some hRaw]
    constructor
    · rintro ⟨a, hMeans, hFind, -⟩
      rw [hImage.mpr ⟨a, hMeans, rfl⟩, hFind]
      rfl
    · intro hKept
      cases hValue : f.image p with
      | error e =>
        rw [hValue] at hKept
        cases hKept
      | ok q =>
        rw [hValue] at hKept
        obtain ⟨a, hMeans, rfl⟩ := hImage.mp hValue
        have hFind := (Except.ok.inj hKept).symm
        exact ⟨a, hMeans, hFind, get_of_find?_eq_write hFind⟩

section

variable {raw record : Bag} {key name : String}

theorem mirrors_typed {t : PropertyType} :
    raw.Mirrors t key (fun p v => p = t.write v) record name (record.get t name) ↔
      (Field.typed t key name).value raw = .ok (record.find? name) :=
  mirrors_iff Field.image_typed

theorem mirrors_uint32 :
    raw.Mirrors .uint32 key (fun p n => ∃ m : Int64, p = .int m ∧ m.toInt = n.toNat) record name
      (record.get .uint32 name) ↔
        (Field.typed .uint32 key name).value raw = .ok (record.find? name) :=
  mirrors_iff (Field.image_typed.trans
    (exists_congr fun _ => and_congr_left' PropertyType.eq_write_uint32_iff))

theorem mirrors_hex :
    raw.Mirrors .uint32 key (Field.MeansHex key) record name (record.get .uint32 name) ↔
      (Field.hex key name).value raw = .ok (record.find? name) :=
  mirrors_iff (f := .hex key name) Field.image_hex

theorem mirrors_hex16 :
    raw.Mirrors .uint16 key (Field.MeansHex16 key) record name (record.get .uint16 name) ↔
      (Field.hex16 key name).value raw = .ok (record.find? name) :=
  mirrors_iff (f := .hex16 key name) Field.image_hex16

end

end Bag

end ModemLink
