/-!
# Beginnings

Whether a text begins with another one.
-/

namespace ModemLink.Text

/-- Whether `s` begins with `start`. -/
def beginsWith (s start : String) : Bool := start.toList.isPrefixOf s.toList

theorem beginsWith_iff {s start : String} :
    beginsWith s start = true ↔ ∃ rest, s.toList = start.toList ++ rest := by
  rw [beginsWith, List.isPrefixOf_iff_prefix]
  exact ⟨fun ⟨rest, h⟩ => ⟨rest, h.symm⟩, fun ⟨rest, h⟩ => ⟨rest, h.symm⟩⟩

end ModemLink.Text
