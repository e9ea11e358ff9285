/-
Indexes, read back.

A row keeps all of an occurrence but its source line, so an index gives back the
occurrences that it was written from, without their lines.  No value has both shapes of a
row, so it does not matter which of them a reader tries first.
-/
import LogCorpus.Occurrence.Index
import LogCorpus.Proofs.Json.RoundTrip
import LogCorpus.Proofs.Stateful

namespace LogCorpus

namespace Occurrence

/-- An occurrence as an index keeps it. -/
def indexed (occurrence : Occurrence) : Occurrence :=
  { occurrence with line := none }

theorem lossless_toRow (occurrence : Occurrence) : occurrence.toRow.Lossless := by
  apply Json.Lossless.array
  intro item hitem
  simp only [List.cons_append, List.nil_append, List.mem_cons, List.mem_map] at hitem
  rcases hitem with rfl | rfl | rfl | ⟨root, _, rfl⟩
  · exact .text _
  · exact .text _
  · exact .text _
  · exact .integer _

end Occurrence

namespace IndexRow

/-- Rows are told apart by their lengths. -/
theorem rooted?_eq_none_or_bare?_eq_none (row : Json) :
    rooted? row = none ∨ bare? row = none := by
  match row with
  | .array [_, _, _, _] => exact .inr rfl
  | .array [_, _, _] => exact .inl rfl
  | .array [] | .array [_] | .array [_, _] | .array (_ :: _ :: _ :: _ :: _ :: _) =>
      exact .inl rfl
  | .null | .bool _ | .integer _ | .decimal _ | .string _ | .object _ => exact .inl rfl

/-- Trying one shape after the other is reading a row by its length. -/
theorem map_occurrence_ofJson? (row : Json) :
    (ofJson? row).map occurrence = Occurrence.ofRow? row := by
  match row with
  | .array [path, severity, message, root] =>
      simp only [ofJson?, rooted?, bare?, Option.or_none, Occurrence.ofRow?]
      cases path.text? with
      | none => rfl
      | some graphPath =>
          cases severity.name? >>= Severity.ofName? with
          | none => rfl
          | some level =>
              cases message.text? with
              | none => rfl
              | some text => cases root.naturalBelow? UInt64.size <;> rfl
  | .array [path, severity, message] =>
      simp only [ofJson?, rooted?, bare?, Option.none_or, Occurrence.ofRow?]
      cases path.text? with
      | none => rfl
      | some graphPath =>
          cases severity.name? >>= Severity.ofName? with
          | none => rfl
          | some level => cases message.text? <;> rfl
  | .array (path :: severity :: message :: _ :: _ :: _) =>
      simp only [ofJson?, rooted?, bare?, Option.or_none, Occurrence.ofRow?]
      cases path.text? <;> cases severity.name? >>= Severity.ofName? <;>
        cases message.text? <;> rfl
  | .array [] | .array [_] | .array [_, _] => rfl
  | .null | .bool _ | .integer _ | .decimal _ | .string _ | .object _ => rfl

theorem rooted?_toRow (occurrence : Occurrence) :
    rooted? occurrence.toRow = occurrence.root.map
      (rooted occurrence.graphPath occurrence.severity occurrence.message) := by
  rw [Occurrence.toRow]
  cases occurrence.root with
  | none => rfl
  | some root =>
      simp [rooted?, Severity.ofName?_name, Json.naturalBelow?_natural root.toNat_lt_size]

theorem bare?_toRow (occurrence : Occurrence) :
    bare? occurrence.toRow =
      if occurrence.root = none then
        some (bare occurrence.graphPath occurrence.severity occurrence.message)
      else none := by
  rw [Occurrence.toRow]
  cases occurrence.root with
  | none => simp [bare?, Severity.ofName?_name]
  | some root => rfl

end IndexRow

theorem Occurrence.ofRow?_toRow (occurrence : Occurrence) :
    ofRow? occurrence.toRow = some occurrence.indexed := by
  rw [← IndexRow.map_occurrence_ofJson?, IndexRow.ofJson?, IndexRow.rooted?_toRow,
    IndexRow.bare?_toRow]
  cases hroot : occurrence.root <;> simp [IndexRow.occurrence, indexed, hroot]

theorem parseIndex_renderIndex (occurrences : List Occurrence) :
    parseIndex (utf8 (renderIndex occurrences)) =
      .ok (occurrences.map Occurrence.indexed) := by
  have hlossless : (Json.array (occurrences.map Occurrence.toRow)).Lossless :=
    Json.Lossless.map Occurrence.lossless_toRow occurrences
  have hrows := mapM_map_eq_some fun occurrence (_ : occurrence ∈ occurrences) =>
    occurrence.ofRow?_toRow
  simp [parseIndex, renderIndex, ofUtf8?_utf8, hlossless.parse?_line, Json.list?, hrows]

/-- No occurrence of an index has a line. -/
theorem line_eq_none_of_parseIndex {bytes : List UInt8} {occurrences : List Occurrence}
    (hparse : parseIndex bytes = .ok occurrences) {occurrence : Occurrence}
    (hmem : occurrence ∈ occurrences) : occurrence.line = none := by
  rw [parseIndex] at hparse
  split at hparse
  · next found hfound =>
      injection hparse with hsame
      subst hsame
      obtain ⟨json, _, hlist⟩ := Option.bind_eq_some_iff.mp hfound
      unfold Json.list? at hlist
      split at hlist
      · obtain ⟨row, _, hrow⟩ := exists_of_mapM_eq_some hlist occurrence hmem
        rw [← IndexRow.map_occurrence_ofJson?] at hrow
        obtain ⟨shape, _, rfl⟩ := Option.map_eq_some_iff.mp hrow
        cases shape <;> rfl
      · cases hlist
  · cases hparse

/-- An index is read back as the occurrences that it was written from, in their order and
without their lines.  A row with a root is read in the longer shape only, with the same
id, and a row without one in the shorter shape only.  The index's reader is the trial of
both shapes, and nothing is a row of both. -/
theorem rows_of_renderIndex (occurrences : List Occurrence) :
    parseIndex (utf8 (renderIndex occurrences)) =
        .ok (occurrences.map fun occurrence => { occurrence with line := none }) ∧
      (∀ occurrence ∈ occurrences,
        IndexRow.rooted? occurrence.toRow = occurrence.root.map
          (.rooted occurrence.graphPath occurrence.severity occurrence.message) ∧
        IndexRow.bare? occurrence.toRow =
          if occurrence.root = none then
            some (.bare occurrence.graphPath occurrence.severity occurrence.message)
          else none) ∧
      (∀ row, Occurrence.ofRow? row = (IndexRow.ofJson? row).map IndexRow.occurrence) ∧
      ∀ row, IndexRow.rooted? row = none ∨ IndexRow.bare? row = none := by
  refine ⟨parseIndex_renderIndex occurrences, ?_, ?_, ?_⟩
  · intro occurrence _
    exact ⟨IndexRow.rooted?_toRow occurrence, IndexRow.bare?_toRow occurrence⟩
  · exact fun row => (IndexRow.map_occurrence_ofJson? row).symm
  · exact IndexRow.rooted?_eq_none_or_bare?_eq_none

end LogCorpus
