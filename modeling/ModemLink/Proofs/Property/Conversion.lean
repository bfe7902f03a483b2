import Mathlib.Logic.Function.Iterate
import ModemLink.Proofs.Property.Writes

/-!
# Values on the bus keep their meaning

A value on the bus becomes a property without a change of meaning. Variants do not count, to
whatever depth they are nested, and integers become the same integer, whatever their width.

* `Value.innermost`, `Value.number?`, `Property.Represents`, `Value.Formless`: what a value holds,
  and the property that means the same, if there is one.
* `Property.ofBus?_eq_some_iff`, `Property.ofBus?_eq_none_iff`: the conversion of one value.
* `conversion_keeps_meaning`: values, dictionaries, and the numbers that are read back.
-/

namespace ModemLink

namespace Bus.Value

/-- What a value holds, without the variants around it. -/
def innermost : Value → Value
  | variant v => innermost v
  | v => v

/-- The number that an integer on the bus is. -/
def number? : Value → Option Int
  | byte n => some n.toNat
  | int16 n => some n.toInt
  | uint16 n => some n.toNat
  | int32 n => some n.toInt
  | uint32 n => some n.toNat
  | int64 n => some n.toInt
  | uint64 n => some n.toNat
  | _ => none

/-- A value has no meaning as a property: a signature, a file descriptor, an array, a dictionary, a
structure, or a number beyond 64 signed bits. -/
def Formless : Value → Prop
  | signatureText _ | descriptor => True
  | strings _ | numbers _ | paths _ | dictionaries _ => True
  | dictionary _ | numbered _ | interfaces _ | objects _ => True
  | record _ | container _ => True
  | uint64 n => 2 ^ 63 ≤ n.toNat
  | boolean _ | byte _ | int16 _ | uint16 _ | int32 _ | uint32 _ | int64 _ | double _ | string _
    | path _ | variant _ => False

theorem innermost_eq_self {v : Value} (h : ∀ u, v ≠ variant u) : v.innermost = v := by
  cases v with
  | variant u => exact absurd rfl (h u)
  | _ => rfl

theorem innermost_ne_variant (v u : Value) : v.innermost ≠ variant u := by
  induction v using innermost.induct with
  | case1 v ih => exact ih
  | case2 v h => rw [innermost_eq_self h]; exact h u

/-- Every value is what it holds, with variants around it. -/
theorem exists_nesting (v : Value) : ∃ depth, v = variant^[depth] v.innermost := by
  induction v using innermost.induct with
  | case1 v ih =>
    obtain ⟨depth, hDepth⟩ := ih
    refine ⟨depth + 1, ?_⟩
    rw [Function.iterate_succ_apply', innermost, ← hDepth]
  | case2 v h => exact ⟨0, (innermost_eq_self h).symm⟩

end Bus.Value

namespace Property

open Bus (Value)

/-- A property means what a value that is no variant means. -/
inductive Represents : Value → Property → Prop
  | bool (b : Bool) : Represents (.boolean b) (.bool b)
  | float (x : Double) : Represents (.double x) (.float x)
  | string (s : String) : Represents (.string s) (.string s)
  | path (s : String) : Represents (.path s) (.path s)
  | integer {v : Value} {n : Int64} (h : v.number? = some n.toInt) : Represents v (.int n)

theorem Represents.unique {v : Value} {p q : Property} (hp : Represents v p)
    (hq : Represents v q) : p = q := by
  cases hp with
  | bool | float | string | path =>
    cases hq with
    | integer h => cases h
    | _ => rfl
  | integer h =>
    cases hq with
    | integer h' => rw [Int64.toInt_inj.mp (Option.some.inj (h.symm.trans h'))]
    | _ => cases h

theorem Represents.not_formless {v : Value} {p : Property} (h : Represents v p) : ¬ v.Formless := by
  cases h with
  | bool | float | string | path => exact not_false
  | @integer v n h =>
    intro hFormless
    cases v with
    | byte | int16 | uint16 | int32 | uint32 | int64 => exact hFormless
    | uint64 m =>
      have hLt := n.toInt_lt
      have hLarge : (2 ^ 63 : Int) ≤ m.toNat := Int.ofNat_le.mpr hFormless
      have hEq : (m.toNat : Int) = n.toInt := Option.some.inj h
      omega
    | _ => cases h

/-- An integer that is not too large becomes the same integer. -/
theorem ofBus?_of_number? {v : Value} {k : Int} (h : v.number? = some k) (hMeant : ¬ v.Formless) :
    ∃ n : Int64, ofBus? v = some (.int n) ∧ n.toInt = k := by
  cases v <;> cases h
  case byte n =>
    have hLt := n.toNat_lt
    exact ⟨_, rfl, Int64.toInt_ofNat_of_lt (by omega)⟩
  case int16 n =>
    have hLow := n.le_toInt
    have hHigh := n.toInt_lt
    exact ⟨_, rfl, Int64.toInt_ofInt_of_le (by omega) (by omega)⟩
  case uint16 n =>
    have hLt := n.toNat_lt
    exact ⟨_, rfl, Int64.toInt_ofNat_of_lt (by omega)⟩
  case int32 n =>
    have hLow := n.le_toInt
    have hHigh := n.toInt_lt
    exact ⟨_, rfl, Int64.toInt_ofInt_of_le (by omega) (by omega)⟩
  case uint32 n =>
    have hLt := n.toNat_lt
    exact ⟨_, rfl, Int64.toInt_ofNat_of_lt (by omega)⟩
  case int64 n => exact ⟨n, rfl, rfl⟩
  case uint64 n =>
    have hLt : n.toNat < 2 ^ 63 := Nat.lt_of_not_le hMeant
    exact ⟨_, if_pos hLt, Int64.toInt_ofNat_of_lt hLt⟩

theorem ofBus?_of_formless {v : Value} (h : v.Formless) : ofBus? v = none := by
  cases v with
  | uint64 n => exact if_neg (Nat.not_lt.mpr h)
  | boolean | byte | int16 | uint16 | int32 | uint32 | int64 | double | string | path | variant =>
    exact h.elim
  | _ => rfl

/-- What is no variant and has a meaning as a property becomes the property that means it. -/
theorem exists_represents {v : Value} (hOpen : ∀ u, v ≠ .variant u) (h : ¬ v.Formless) :
    ∃ p, ofBus? v = some p ∧ Represents v p := by
  cases hNumber : v.number? with
  | some k =>
    obtain ⟨n, hForm, rfl⟩ := ofBus?_of_number? hNumber h
    exact ⟨.int n, hForm, .integer hNumber⟩
  | none =>
    cases v with
    | boolean b => exact ⟨_, rfl, .bool b⟩
    | double x => exact ⟨_, rfl, .float x⟩
    | string s => exact ⟨_, rfl, .string s⟩
    | path s => exact ⟨_, rfl, .path s⟩
    | variant u => exact absurd rfl (hOpen u)
    | byte | int16 | uint16 | int32 | uint32 | int64 | uint64 => cases hNumber
    | _ => exact absurd trivial h

theorem ofBus?_innermost (v : Value) : ofBus? v = ofBus? v.innermost := by
  fun_induction Value.innermost v with
  | case1 v ih => exact ih
  | case2 v h => rfl

/-- What a value becomes means what the value holds. -/
theorem ofBus?_eq_some_iff {v : Value} {p : Property} :
    ofBus? v = some p ↔ Represents v.innermost p := by
  rw [ofBus?_innermost]
  constructor
  · intro h
    have hMeant : ¬ v.innermost.Formless := fun hFormless => by
      rw [ofBus?_of_formless hFormless] at h
      cases h
    obtain ⟨q, hForm, hq⟩ := exists_represents v.innermost_ne_variant hMeant
    rwa [Option.some.inj (h.symm.trans hForm)]
  · intro h
    obtain ⟨q, hForm, hq⟩ := exists_represents v.innermost_ne_variant h.not_formless
    rw [hForm, hq.unique h]

/-- A value becomes nothing if it holds what has no meaning as a property. -/
theorem ofBus?_eq_none_iff {v : Value} : ofBus? v = none ↔ v.innermost.Formless := by
  rw [ofBus?_innermost]
  refine ⟨fun h => ?_, ofBus?_of_formless⟩
  by_contra hMeant
  obtain ⟨p, hForm, -⟩ := exists_represents v.innermost_ne_variant hMeant
  rw [h] at hForm
  cases hForm

end Property

/-! ## Dictionaries -/

namespace Bag

/-- A dictionary becomes the bag of what its entries mean, the last one of each key that means
anything. -/
theorem find?_ofBus_eq_some_iff {entries : List (String × Bus.Value)} {key : String}
    {p : Property} :
    (ofBus entries).find? key = some p ↔
      ∃ before v after, entries = before ++ (key, v) :: after ∧
        Property.Represents v.innermost p ∧ ∀ u, (key, u) ∈ after → u.innermost.Formless := by
  have hAfter : ∀ after : List (String × Bus.Value),
      (∀ e ∈ after, e.1 = key → e.2.innermost.Formless) ↔
        ∀ u, (key, u) ∈ after → u.innermost.Formless := by
    refine fun after => ⟨fun h u hu => h (key, u) hu rfl, ?_⟩
    rintro h ⟨_, u⟩ hu rfl
    exact h u hu
  simp only [find?_ofBus_iff, Last, Property.ofBus?_eq_some_iff, Property.ofBus?_eq_none_iff, hAfter]

/-- A dictionary leaves nothing under a key if no entry of the key means anything. -/
theorem find?_ofBus_eq_none_iff {entries : List (String × Bus.Value)} {key : String} :
    (ofBus entries).find? key = none ↔ ∀ v, (key, v) ∈ entries → v.innermost.Formless := by
  have hFound : (∃ p, Last Property.ofBus? entries key p) ↔ _ := exists_last_iff Property.ofBus?
  simp only [← find?_ofBus_iff, ← Option.ne_none_iff_exists', ne_eq] at hFound
  rw [not_iff_comm] at hFound
  simp [← hFound, ← Property.ofBus?_eq_none_iff]

end Bag

/-- **Values on the bus keep their meaning.** A value with variants around it, however many, becomes
what it becomes without them: the property that means the same, and nothing only for a signature, a
descriptor, an array, a dictionary, a structure or a number beyond 64 signed bits. A dictionary
becomes the bag that has under each key what the last entry of the key means that means anything,
and no key besides. If that is an integer, it is read back, as any type that has room for it, as the
same number, and refused as any other type. -/
theorem conversion_keeps_meaning :
    (∀ v : Bus.Value, (∃ depth, v = Bus.Value.variant^[depth] v.innermost) ∧
      (∀ u, v.innermost ≠ .variant u) ∧ Property.ofBus? v = Property.ofBus? v.innermost) ∧
    (∀ v p, Property.ofBus? v = some p ↔ Property.Represents v.innermost p) ∧
    (∀ v, Property.ofBus? v = none ↔ v.innermost.Formless) ∧
    (∀ entries key p, (Bag.ofBus entries).find? key = some p ↔
      ∃ before v after, entries = before ++ (key, v) :: after ∧
        Property.Represents v.innermost p ∧ ∀ u, (key, u) ∈ after → u.innermost.Formless) ∧
    (∀ entries key, (Bag.ofBus entries).find? key = none ↔
      ∀ v, (key, v) ∈ entries → v.innermost.Formless) ∧
    ∀ (before after : List (String × Bus.Value)) (key : String) (v : Bus.Value) (k : Int),
      v.innermost.number? = some k → ¬ v.innermost.Formless →
      (∀ u, (key, u) ∈ after → u.innermost.Formless) →
      ∀ t : PropertyType,
        (∀ w, (Bag.ofBus (before ++ (key, v) :: after)).get t key = .ok w ↔
          t.number? w = some k) ∧
        ((∃ w, t.number? w = some k) ↔ t.HasRoom k) ∧
        (¬ t.HasRoom k → (Bag.ofBus (before ++ (key, v) :: after)).get t key =
          .error (.typeMismatch key t .int)) := by
  refine ⟨fun v => ⟨v.exists_nesting, v.innermost_ne_variant, Property.ofBus?_innermost v⟩,
    fun _ _ => Property.ofBus?_eq_some_iff, fun _ => Property.ofBus?_eq_none_iff,
    fun _ _ _ => Bag.find?_ofBus_eq_some_iff, fun _ _ => Bag.find?_ofBus_eq_none_iff, ?_⟩
  intro before after key v k hNumber hMeant hAfter t
  obtain ⟨n, hForm, rfl⟩ := Property.ofBus?_of_number? hNumber hMeant
  have hFind : (Bag.ofBus (before ++ (key, v) :: after)).find? key = some (.int n) :=
    Bag.find?_ofBus_eq_some_iff.mpr ⟨before, v, after, rfl, .integer hNumber, hAfter⟩
  have hReads : (Bag.ofBus (before ++ (key, v) :: after)).ReadsAs key (· = .int n) t :=
    Bag.readsAs (fun p => by rw [hFind, Option.some.injEq, eq_comm]) t
  refine ⟨fun w => ?_, PropertyType.exists_number?_iff, fun hRoom => ?_⟩
  · simp only [hReads.value w, exists_eq_left, PropertyType.reads_int_iff]
  · exact (hReads.error _).mpr (.inr ⟨_, rfl, mt PropertyType.fits_int_iff.mp hRoom, rfl⟩)

/-- A number within two variants, with an entry of its key before it and one, an array, after it. -/
def nestedNumber : List (String × Bus.Value) :=
  [("rsrp", .boolean true)] ++
    ("rsrp", .variant (.variant (.uint64 70000))) :: [("fd", .descriptor), ("rsrp", .strings ["x"])]

theorem conversion_keeps_meaning_nested :
    (Bag.ofBus nestedNumber).find? "fd" = none ∧
    (Bag.ofBus nestedNumber).get .uint32 "rsrp" = .ok 70000 ∧
    (Bag.ofBus nestedNumber).get .uint16 "rsrp" = .error (.typeMismatch "rsrp" .uint16 .int) ∧
    (Bag.ofBus nestedNumber).get .bool "rsrp" = .error (.typeMismatch "rsrp" .bool .int) := by
  obtain ⟨-, -, -, -, hAbsent, hNumber⟩ := conversion_keeps_meaning
  have hAfter : ∀ u, ("rsrp", u) ∈ [("fd", Bus.Value.descriptor), ("rsrp", .strings ["x"])] →
      u.innermost.Formless := by
    simp [Bus.Value.innermost, Bus.Value.Formless]
  have hMeant : ¬ (Bus.Value.variant (.variant (.uint64 70000))).innermost.Formless := by
    simp [Bus.Value.innermost, Bus.Value.Formless]
  have hReads := hNumber [("rsrp", .boolean true)] _ "rsrp" _ 70000 rfl hMeant hAfter
  refine ⟨(hAbsent _ "fd").mpr ?_, ((hReads .uint32).1 70000).mpr rfl,
    (hReads .uint16).2.2 ?_, (hReads .bool).2.2 not_false⟩
  · simp [nestedNumber, Bus.Value.innermost, Bus.Value.Formless]
  · simp [PropertyType.HasRoom]

end ModemLink
