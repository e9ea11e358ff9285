/-
Segments of a text between separators.

`segments` cuts a text at every occurrence of a separator and drops the
separators; joining the segments by the separator gives the text back.
-/

namespace LogCorpus

/-- The maximal runs without the separator, in order.  There is one more of
them than there are separators, so some may be empty. -/
def segments (separator : Char) : List Char → List (List Char)
  | [] => [[]]
  | c :: rest =>
      if c = separator then [] :: segments separator rest
      else
        match segments separator rest with
        | [] => [[c]]
        | first :: others => (c :: first) :: others

/-- The segments with the separator between neighbours. -/
def joinSegments (separator : Char) : List (List Char) → List Char
  | [] => []
  | [segment] => segment
  | segment :: rest => segment ++ separator :: joinSegments separator rest

theorem segments_ne_nil (separator : Char) (text : List Char) :
    segments separator text ≠ [] := by
  cases text with
  | nil => simp [segments]
  | cons c rest =>
      by_cases hc : c = separator
      · simp [segments, hc]
      · simp only [segments, hc, ↓reduceIte]
        cases segments separator rest <;> simp

theorem joinSegments_segments (separator : Char) (text : List Char) :
    joinSegments separator (segments separator text) = text := by
  induction text with
  | nil => rfl
  | cons c rest ih =>
      have hne := segments_ne_nil separator rest
      by_cases hc : c = separator
      · simp only [segments, hc, ↓reduceIte]
        cases hs : segments separator rest with
        | nil => exact absurd hs hne
        | cons first others => rw [hs] at ih; simp [joinSegments, ih]
      · simp only [segments, hc, ↓reduceIte]
        cases hs : segments separator rest with
        | nil => exact absurd hs hne
        | cons first others =>
            rw [hs] at ih
            cases others with
            | nil => simpa [joinSegments] using ih
            | cons second more => simpa [joinSegments] using ih

end LogCorpus
