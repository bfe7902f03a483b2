/-!
# Segments

A text cut at every place where a separator stands. A text without separators is one segment, and an
empty text is one empty segment.

* `segments`: the parts; `segments_ne_nil`, `segments_cons_self`, `segments_cons_of_ne` are its
  laws.
-/

namespace ModemLink.Text

/-- The parts of a text between the places where `sep` stands. -/
def segments (sep : Char) : List Char → List (List Char)
  | [] => [[]]
  | c :: rest =>
    if c = sep then [] :: segments sep rest
    else
      match segments sep rest with
      | [] => [[c]]
      | s :: more => (c :: s) :: more

theorem segments_ne_nil (sep : Char) (s : List Char) : segments sep s ≠ [] := by
  cases s with
  | nil => simp [segments]
  | cons c rest =>
    unfold segments
    split
    · simp
    · split <;> simp

@[simp] theorem segments_cons_self (sep : Char) (s : List Char) :
    segments sep (sep :: s) = [] :: segments sep s := by
  simp [segments]

theorem segments_cons_of_ne {sep c : Char} (h : c ≠ sep) {s first : List Char}
    {more : List (List Char)} (hs : segments sep s = first :: more) :
    segments sep (c :: s) = (c :: first) :: more := by
  simp [segments, h, hs]

end ModemLink.Text
