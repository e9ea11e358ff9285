/-
Segments of a text that is put together.

A separator between two texts stays a border between their segments, and a text
without separators is one segment.  So texts without separators can be put together
with separators between them and be taken apart again.
-/
import LogCorpus.Text.Segments

namespace LogCorpus

theorem not_mem_toDigits {c : Char} (hc : c.isDigit = false) (number : Nat) :
    c ∉ Nat.toDigits 10 number := by
  intro hmem
  rw [Nat.isDigit_of_mem_toDigits (by decide) (by decide) hmem] at hc
  cases hc

theorem segments_of_not_mem {separator : Char} {text : List Char}
    (htext : separator ∉ text) : segments separator text = [text] := by
  induction text with
  | nil => rfl
  | cons head tail ih =>
      rw [List.mem_cons, not_or] at htext
      rw [segments, if_neg (Ne.symm htext.1), ih htext.2]

theorem not_mem_of_mem_segments {separator : Char} {text segment : List Char}
    (hsegment : segment ∈ segments separator text) : separator ∉ segment := by
  induction text generalizing segment with
  | nil => simp_all [segments]
  | cons c rest ih =>
      rw [segments] at hsegment
      split at hsegment
      · rcases List.mem_cons.mp hsegment with rfl | hrest
        · exact List.not_mem_nil
        · exact ih hrest
      · next hc =>
          split at hsegment
          · rw [List.mem_singleton] at hsegment
            simp [hsegment, Ne.symm hc]
          · next first others hrest =>
              rw [hrest] at ih
              rcases List.mem_cons.mp hsegment with rfl | hothers
              · rw [List.mem_cons, not_or]
                exact ⟨Ne.symm hc, ih List.mem_cons_self⟩
              · exact ih (List.mem_cons_of_mem first hothers)

/-- A text starts with the separator if its first segment is empty and it has more. -/
theorem head?_eq_separator_iff {separator : Char} {text : List Char} :
    text.head? = some separator ↔
      ∃ others, others ≠ [] ∧ segments separator text = [] :: others := by
  cases text with
  | nil => simp [segments]
  | cons c rest =>
      rw [List.head?_cons, Option.some_inj]
      constructor
      · rintro rfl
        exact ⟨segments c rest, segments_ne_nil c rest, if_pos rfl⟩
      · rintro ⟨others, -, hsegments⟩
        by_cases hc : c = separator
        · exact hc
        · rw [segments, if_neg hc] at hsegments
          split at hsegments <;> cases hsegments

theorem segments_append_cons (separator : Char) (front back : List Char) :
    segments separator (front ++ separator :: back) =
      segments separator front ++ segments separator back := by
  induction front with
  | nil => simp [segments]
  | cons head tail ih =>
      rw [List.cons_append, segments, segments, ih]
      by_cases hhead : head = separator
      · rw [if_pos hhead, if_pos hhead, List.cons_append]
      · rw [if_neg hhead, if_neg hhead]
        cases htail : segments separator tail with
        | nil => exact absurd htail (segments_ne_nil separator tail)
        | cons first others => rfl

/-- Texts that each end with a separator: their segments, and an empty one. -/
theorem segments_flatMap_append {separator : Char} {texts : List (List Char)}
    (htexts : ∀ text ∈ texts, separator ∉ text) :
    segments separator (texts.flatMap fun text => text ++ [separator]) =
      texts ++ [[]] := by
  induction texts with
  | nil => rfl
  | cons head tail ih =>
      rw [List.flatMap_cons, List.append_assoc, List.singleton_append,
        segments_append_cons,
        segments_of_not_mem (htexts head List.mem_cons_self),
        ih fun text htext => htexts text (List.mem_cons_of_mem head htext)]
      rfl

/-- Texts with a separator between neighbours: their segments. -/
theorem segments_intercalate {separator : Char} {texts : List (List Char)}
    (hne : texts ≠ []) (htexts : ∀ text ∈ texts, separator ∉ text) :
    segments separator ([separator].intercalate texts) = texts := by
  induction texts with
  | nil => exact absurd rfl hne
  | cons head tail ih =>
      have hhead := segments_of_not_mem (htexts head List.mem_cons_self)
      cases tail with
      | nil => simpa using hhead
      | cons next rest =>
          have htail := ih (List.cons_ne_nil next rest)
            fun text htext => htexts text (List.mem_cons_of_mem head htext)
          rw [List.intercalate_cons_cons, List.append_assoc, List.singleton_append,
            segments_append_cons, hhead, htail]
          rfl

theorem joinSegments_eq (separator : Char) (texts : List (List Char)) :
    joinSegments separator texts = [separator].intercalate texts := by
  induction texts with
  | nil => rfl
  | cons head tail ih =>
      cases tail with
      | nil => simp [joinSegments]
      | cons next rest => simp [joinSegments, ih]

/-- Texts that are joined by the separator: their segments. -/
theorem segments_joinSegments {separator : Char} {texts : List (List Char)}
    (hne : texts ≠ []) (htexts : ∀ text ∈ texts, separator ∉ text) :
    segments separator (joinSegments separator texts) = texts := by
  rw [joinSegments_eq, segments_intercalate hne htexts]

/-- The first segments of a text, joined again, start with the separator if the text
does. -/
theorem head?_joinSegments_iff {separator : Char} {text : List Char}
    {kept rest : List (List Char)} (hne : kept ≠ []) (hblank : kept ≠ [[]])
    (hsegments : segments separator text = kept ++ rest) :
    (joinSegments separator kept).head? = some separator ↔ text.head? = some separator := by
  have hkept : ∀ segment ∈ kept, separator ∉ segment := fun segment hsegment =>
    not_mem_of_mem_segments (hsegments ▸ List.mem_append_left rest hsegment)
  rw [head?_eq_separator_iff, head?_eq_separator_iff, segments_joinSegments hne hkept,
    hsegments]
  constructor
  · rintro ⟨others, hothers, rfl⟩
    exact ⟨others ++ rest, by simp [hothers], rfl⟩
  · rintro ⟨others, -, hparts⟩
    cases kept with
    | nil => exact absurd rfl hne
    | cons first more =>
        obtain ⟨rfl, -⟩ := List.cons.inj hparts
        exact ⟨more, fun hmore => hblank (congrArg _ hmore), rfl⟩

/-- Every character of texts that are put together comes from one of them or is the
separator. -/
theorem eq_or_mem_of_mem_intercalate {separator c : Char} {texts : List (List Char)}
    (hmem : c ∈ [separator].intercalate texts) :
    c = separator ∨ ∃ text ∈ texts, c ∈ text := by
  induction texts with
  | nil => exact absurd hmem List.not_mem_nil
  | cons head tail ih =>
      cases tail with
      | nil =>
          rw [List.intercalate_singleton] at hmem
          exact .inr ⟨head, List.mem_cons_self, hmem⟩
      | cons next rest =>
          rw [List.intercalate_cons_cons, List.mem_append, List.mem_append,
            List.mem_singleton] at hmem
          rcases hmem with (hhead | hseparator) | htail
          · exact .inr ⟨head, List.mem_cons_self, hhead⟩
          · exact .inl hseparator
          · rcases ih htail with hseparator | ⟨text, htext, hc⟩
            · exact .inl hseparator
            · exact .inr ⟨text, List.mem_cons_of_mem head htext, hc⟩

end LogCorpus
