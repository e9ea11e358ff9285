/-
Examples on lines of their own.

The text of an example holds no line's end: line ends inside of its strings are
escaped and the rest of its JSON is written without blanks.  So a file of
examples falls into as many lines as there are examples.
-/
import LogCorpus.Conversion.Dataset
import LogCorpus.Proofs.Text.Segments
import LogCorpus.Proofs.Training.RoundTrip

namespace LogCorpus

theorem hexDigit_ne_newline (digit : Nat) : '\n' ≠ hexDigit digit := by
  match digit with
  | 0 | 1 | 2 | 3 | 4 | 5 | 6 | 7 | 8 | 9 | 10 | 11 | 12 | 13 | 14 | 15 => decide
  | _ + 16 => simp [hexDigit, Nat.digitChar]

theorem newline_not_mem_escapeChar (c : Char) : '\n' ∉ escapeChar c := by
  rw [escapeChar]
  by_cases hnewline : c = '\n'
  · subst hnewline
    decide
  · repeat' split
    all_goals simp [hexDigit_ne_newline, Ne.symm hnewline]

theorem newline_not_mem_renderString (text : Option String) :
    '\n' ∉ renderString text := by
  cases text with
  | none => decide
  | some text =>
      rw [renderString]
      simp [newline_not_mem_escapeChar]

theorem newline_not_mem_renderInteger (value : Int) : '\n' ∉ renderInteger value := by
  have hdigits := not_mem_toDigits (c := '\n') (by decide)
  cases value with
  | ofNat number => exact hdigits number
  | negSucc number =>
      rw [renderInteger, List.mem_cons, not_or]
      exact ⟨by decide, hdigits (number + 1)⟩

theorem newline_not_mem_commaSeparated {texts : List (List Char)}
    (htexts : ∀ text ∈ texts, '\n' ∉ text) : '\n' ∉ commaSeparated texts := by
  induction texts with
  | nil => exact List.not_mem_nil
  | cons head tail ih =>
      have hhead := htexts head List.mem_cons_self
      have htail := ih fun text htext => htexts text (List.mem_cons_of_mem head htext)
      rw [commaSeparated] at htail ⊢
      cases tail with
      | nil => rwa [List.intercalate_singleton]
      | cons second rest =>
          rw [List.intercalate_cons_cons, List.mem_append, List.mem_append,
            not_or, not_or]
          exact ⟨⟨hhead, by decide⟩, htail⟩

namespace Json

theorem renderItems_eq_map (items : List Json) :
    renderItems items = items.map render := by
  induction items with
  | nil => rfl
  | cons head tail ih => rw [renderItems, ih, List.map_cons]

theorem renderMembers_eq_map (members : List (Option String × Json)) :
    renderMembers members = members.map fun member =>
      renderString member.1 ++ ':' :: render member.2 := by
  induction members with
  | nil => rfl
  | cons head tail ih => rw [renderMembers, ih, List.map_cons]

/-- The text of the value is one line. -/
def OneLine (value : Json) : Prop :=
  '\n' ∉ value.render

theorem oneLine_text (text : String) : OneLine (.text text) := by
  rw [OneLine, Json.text, render]
  exact newline_not_mem_renderString (some text)

theorem oneLine_integer (value : Int) : OneLine (.integer value) := by
  rw [OneLine, render]
  exact newline_not_mem_renderInteger value

theorem oneLine_array {items : List Json} (hitems : ∀ item ∈ items, item.OneLine) :
    OneLine (.array items) := by
  have hrendered : '\n' ∉ commaSeparated (renderItems items) := by
    apply newline_not_mem_commaSeparated
    intro text htext
    rw [renderItems_eq_map, List.mem_map] at htext
    obtain ⟨item, hitem, rfl⟩ := htext
    exact hitems item hitem
  rw [OneLine, render]
  simp [hrendered]

theorem oneLine_object {members : List (Option String × Json)}
    (hmembers : ∀ member ∈ members, member.2.OneLine) : OneLine (.object members) := by
  have hrendered : '\n' ∉ commaSeparated (renderMembers members) := by
    apply newline_not_mem_commaSeparated
    intro text htext
    rw [renderMembers_eq_map, List.mem_map] at htext
    obtain ⟨member, hmember, rfl⟩ := htext
    have hvalue : '\n' ∉ member.2.render := hmembers member hmember
    simp [newline_not_mem_renderString, hvalue]
  rw [OneLine, render]
  simp [hrendered]

/-- The induction is on what a lossless value is made of. -/
theorem Lossless.oneLine {value : Json} (hvalue : value.Lossless) : value.OneLine := by
  induction hvalue with
  | null => rw [OneLine, render]; decide
  | bool value => cases value <;> rw [OneLine, render] <;> decide
  | integer value => exact oneLine_integer value
  | text text => exact oneLine_text text
  | array _ ih => exact oneLine_array ih
  | object _ _ ih => exact oneLine_object ih

end Json

theorem TrainingExample.newline_not_mem_line (training : TrainingExample) :
    '\n' ∉ training.line.toList := by
  rw [line, Json.line, String.toList_ofList]
  exact training.lossless_toJson.oneLine

/-- The lines of a text in which every line is ended. -/
def textLines? (text : String) : Option (List String) :=
  let pieces := (segments '\n' text.toList).map String.ofList
  if pieces.getLast? = some "" then some pieces.dropLast else none

section

variable {lines : List String} (hlines : ∀ line ∈ lines, '\n' ∉ line.toList)
include hlines

/-- Lines that are each ended fall apart into themselves, and an empty piece. -/
theorem segments_join :
    (segments '\n' (String.join (lines.map (· ++ "\n"))).toList).map String.ofList =
      lines ++ [""] := by
  have htext : (String.join (lines.map (· ++ "\n"))).toList =
      (lines.map String.toList).flatMap fun text => text ++ ['\n'] := by
    rw [String.toList_join, List.flatMap_map, List.flatMap_map]
    simp
  have htexts : ∀ text ∈ lines.map String.toList, '\n' ∉ text :=
    List.forall_mem_map.mpr hlines
  rw [htext, segments_flatMap_append htexts, List.map_append, List.map_map]
  simp

theorem textLines?_join : textLines? (String.join (lines.map (· ++ "\n"))) = some lines := by
  simp only [textLines?, segments_join hlines, List.getLast?_concat, List.dropLast_concat,
    if_true]

end

theorem renderLines_eq (examples : List TrainingExample) :
    renderLines examples =
      String.join ((examples.map TrainingExample.line).map (· ++ "\n")) := by
  rw [renderLines, List.map_map]
  rfl

theorem newline_not_mem_of_mem_lines (examples : List TrainingExample) :
    ∀ line ∈ examples.map TrainingExample.line, '\n' ∉ line.toList :=
  List.forall_mem_map.mpr fun training _ => training.newline_not_mem_line

/-- A file of examples falls into the lines of the examples, and an empty piece. -/
theorem segments_renderLines (examples : List TrainingExample) :
    (segments '\n' (renderLines examples).toList).map String.ofList =
      examples.map TrainingExample.line ++ [""] := by
  rw [renderLines_eq, segments_join (newline_not_mem_of_mem_lines examples)]

/-- The lines of a file of examples are the lines of the examples. -/
theorem textLines?_renderLines (examples : List TrainingExample) :
    textLines? (renderLines examples) =
      some (examples.map TrainingExample.line) := by
  rw [renderLines_eq, textLines?_join (newline_not_mem_of_mem_lines examples)]

end LogCorpus
