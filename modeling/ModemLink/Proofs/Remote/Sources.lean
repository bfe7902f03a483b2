import ModemLink.Proofs.Bus.Tree
import ModemLink.Proofs.Property.Conversion
import ModemLink.Remote.Modem

/-!
# Texts of location sources

The text of the serving cell stands among the texts of all location sources. A property is read
whatever number of variants stands around its value; the text of the serving cell is read through
one variant at most, and is lost in two.

* `Value.depth`: the number of variants around a value.
* `ofBus?_eq_string_iff`: the values that are read as a text when they are properties.
* `area_text_through_one_variant`: the text that is read, and when it is the one of the property.
-/

namespace ModemLink

open Bus (Value)

/-! ## Nested texts -/

namespace Bus.Value

/-- How many variants stand around what a value holds. -/
def depth : Value → Nat
  | variant v => depth v + 1
  | _ => 0

theorem eq_nesting (v : Value) : v = variant^[v.depth] v.innermost := by
  induction v using innermost.induct with
  | case1 v ih => rw [depth, Function.iterate_succ_apply', innermost, ← ih]
  | case2 v h =>
    have hDepth : v.depth = 0 := by
      cases v with
      | variant u => exact absurd rfl (h u)
      | _ => rfl
    rw [hDepth, innermost_eq_self h, Function.iterate_zero_apply]

end Bus.Value

theorem Property.ofBus?_eq_string_iff {v : Value} {s : String} :
    ofBus? v = some (.string s) ↔ v = Value.variant^[v.depth] (.string s) := by
  have hString : ofBus? v = some (.string s) ↔ v.innermost = .string s := by
    rw [ofBus?_eq_some_iff]
    constructor
    · intro h
      generalize v.innermost = u at h
      cases h
      rfl
    · rintro h
      exact h ▸ .string s
  rw [hString]
  constructor
  · intro h
    rw [← h]
    exact v.eq_nesting
  · intro h
    have hInnermost : ∀ n, (Value.variant^[n] (.string s)).innermost = .string s := by
      intro n
      induction n with
      | zero => rfl
      | succ n ih => rw [Function.iterate_succ_apply', Value.innermost, ih]
    rw [h]
    exact hInnermost _

namespace Modem

variable {entries : List (UInt32 × Value)} {s : String}

/-! ## The text of the serving cell -/

theorem areaText?_eq_some_iff : areaText? entries = some s ↔
    entries.lookup areaSource = some (.string s) ∨
      entries.lookup areaSource = some (.variant (.string s)) := by
  unfold areaText?
  split
  · rename_i h
    simp [h]
  · rename_i h
    simp [h]
  · rename_i hPlain hWrapped
    refine iff_of_false nofun ?_
    rintro (h | h)
    · exact hPlain s h
    · exact hWrapped s h

/-- A text in at most one variant. -/
theorem shallow_text_iff {v : Value} :
    Property.ofBus? v = some (.string s) ∧ v.depth ≤ 1 ↔
      v = .string s ∨ v = .variant (.string s) := by
  constructor
  · rintro ⟨hText, hDepth⟩
    have hNesting := Property.ofBus?_eq_string_iff.mp hText
    rcases Nat.le_one_iff_eq_zero_or_eq_one.mp hDepth with h | h <;> rw [h] at hNesting
    · exact .inl hNesting
    · exact .inr hNesting
  · rintro (rfl | rfl)
    · exact ⟨rfl, Nat.zero_le 1⟩
    · exact ⟨rfl, Nat.le_refl 1⟩

theorem areaText?_iff_mem (hKeys : (entries.map Prod.fst).Nodup) :
    areaText? entries = some s ↔
      ∃ v, (1, v) ∈ entries ∧ Property.ofBus? v = some (.string s) ∧ v.depth ≤ 1 := by
  simp only [areaText?_eq_some_iff, shallow_text_iff, ← Bus.World.mem_iff_lookup hKeys]
  constructor
  · rintro (h | h)
    · exact ⟨_, h, .inl rfl⟩
    · exact ⟨_, h, .inr rfl⟩
  · rintro ⟨v, hMem, rfl | rfl⟩
    · exact .inl hMem
    · exact .inr hMem

/-- **The text of the serving cell is read through one variant.** In a dictionary from location
sources to values the text of the serving cell is read if the first source has a value that would be
read as a text if it were a property, and that stands in no variant or in one; in any other case
there is no text. So it is read as a property is exactly if no text of the first source stands in
two variants or more. -/
theorem area_text_through_one_variant (hKeys : (entries.map Prod.fst).Nodup) :
    (∀ s, areaText? entries = some s ↔
      ∃ v, (1, v) ∈ entries ∧ Property.ofBus? v = some (.string s) ∧ v.depth ≤ 1) ∧
    ((∀ s, areaText? entries = some s ↔
        ∃ v, (1, v) ∈ entries ∧ Property.ofBus? v = some (.string s)) ↔
      ∀ v s, (1, v) ∈ entries → Property.ofBus? v = some (.string s) → v.depth ≤ 1) := by
  refine ⟨fun s => areaText?_iff_mem hKeys, ?_⟩
  simp only [areaText?_iff_mem hKeys]
  constructor
  · intro hSame v s hMem hText
    obtain ⟨u, hOther, -, hDepth⟩ := (hSame s).mpr ⟨v, hMem, hText⟩
    have hFound := (Bus.World.mem_iff_lookup hKeys 1 u).mp hOther
    rw [(Bus.World.mem_iff_lookup hKeys 1 v).mp hMem] at hFound
    rwa [Option.some.inj hFound]
  · intro hShallow s
    constructor
    · rintro ⟨v, hMem, hText, -⟩
      exact ⟨v, hMem, hText⟩
    · rintro ⟨v, hMem, hText⟩
      exact ⟨v, hMem, hText, hShallow v s hMem hText⟩

/-- Two sources, the text of the serving cell in a variant. -/
theorem area_text_in_variant :
    let text := "262,02,FFFE,1A2B,3C4D"
    let entries : List (UInt32 × Value) := [(4, .string "$GPGGA"), (1, .variant (.string text))]
    (entries.map Prod.fst).Nodup ∧ areaText? entries = some text ∧
      ∀ s, areaText? entries = some s ↔
        ∃ v, (1, v) ∈ entries ∧ Property.ofBus? v = some (.string s) := by
  intro text entries
  have hKeys : (entries.map Prod.fst).Nodup := by
    subst entries
    decide
  obtain ⟨hRead, hSame⟩ := area_text_through_one_variant hKeys
  refine ⟨hKeys, (hRead text).mpr ⟨.variant (.string text), ?_, rfl, Nat.le_refl 1⟩,
    hSame.mpr fun v s hMem hText => ?_⟩
  · subst entries
    simp
  · subst entries
    obtain rfl : v = .variant (.string text) := by simpa using hMem
    exact Nat.le_refl 1

/-- In two variants the text is lost, which a property is not. -/
theorem area_text_lost_in_two_variants :
    let text := "262,02,FFFE,1A2B,3C4D"
    let entries : List (UInt32 × Value) := [(1, .variant (.variant (.string text)))]
    (entries.map Prod.fst).Nodup ∧ areaText? entries = none ∧
      ¬ ∀ s, areaText? entries = some s ↔
        ∃ v, (1, v) ∈ entries ∧ Property.ofBus? v = some (.string s) := by
  intro text entries
  have hLost : areaText? entries = none := rfl
  refine ⟨by subst entries; decide, hLost, fun hSame => ?_⟩
  have hRead := (hSame text).mpr ⟨_, List.mem_cons_self, rfl⟩
  rw [hLost] at hRead
  cases hRead

end Modem

end ModemLink
