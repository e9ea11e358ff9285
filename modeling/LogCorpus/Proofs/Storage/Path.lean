/-
Names as text, the last part of a joined path and the parent of a path.

What is shown of a name that is spelled like a text is this text, and any other name
has a replacement character in it.  A name without slashes that is joined to a base
becomes the last part of the path, whatever the base is, and the parent of a path has
the parts before the last one.
-/
import LogCorpus.Proofs.Text.Bytes
import LogCorpus.Proofs.Text.Segments
import LogCorpus.Storage.Path

namespace LogCorpus

namespace FileName

theorem ofText_injective : Function.Injective ofText :=
  fun _ _ heq => utf8_injective (congrArg bytes heq)

@[simp] theorem text_ofText (text : String) : (ofText text).text = text :=
  lossyText_utf8 text

/-- Is the name spelled like a text? -/
def IsText (name : FileName) : Prop :=
  ofText name.text = name

instance (name : FileName) : Decidable name.IsText :=
  inferInstanceAs (Decidable (_ = _))

theorem isText_of_not_mem {name : FileName} (hnone : '\uFFFD' ∉ name.text.toList) :
    name.IsText := by
  rw [IsText, ofText, text, utf8_lossyText hnone]

/-- A name that is shown like a text without a replacement character is spelled like
it. -/
theorem eq_ofText {name : FileName} {text : String} (hshown : name.text = text)
    (hnone : '\uFFFD' ∉ text.toList) : name = ofText text := by
  rw [← hshown] at hnone ⊢
  exact (isText_of_not_mem hnone).symm

/-- An ASCII character that is shown is in the name. -/
theorem mem_bytes_of_mem_text {name : FileName} {c : Char} (hc : c ∈ name.text.toList)
    (hascii : c.toNat ≤ 0x7f) : .ofNat c.toNat ∈ name.bytes := by
  apply mem_of_mem_lossyText hc
  · rintro rfl
    exact absurd hascii (by decide)
  · simp [String.utf8EncodeChar, hascii]

end FileName

/-- Names are shown one by one where a path is made of them. -/
theorem lossyText_intercalate (names : List FileName) :
    lossyText ([0x2f].intercalate (names.map FileName.bytes)) =
      "/".intercalate (names.map FileName.text) := by
  rw [← String.toList_inj, String.toList_intercalate, lossyText, String.toList_ofList]
  induction names with
  | nil => rfl
  | cons name rest ih =>
      cases rest with
      | nil => simp [FileName.text, lossyText]
      | cons next others =>
          have hslash (behind : List UInt8) :
              lossyFrom 0 (0x2f :: behind) = '/' :: lossyFrom 0 behind :=
            lossyFrom_utf8EncodeChar '/' behind
          simp only [List.map_cons, List.intercalate_cons_cons, List.singleton_append,
            List.append_assoc] at ih ⊢
          rw [lossyFrom_append_cons (by decide), hslash, ih]
          simp [FileName.text, lossyText]

/-- A name that names an entry of a directory: it has no slash and leads neither
nowhere nor up. -/
structure IsEntryName (name : String) : Prop where
  no_slash : '/' ∉ name.toList
  ne_empty : name ≠ ""
  ne_dot : name ≠ "."
  ne_dots : name ≠ ".."

theorem IsEntryName.not_isAbsolute {name : String} (hname : IsEntryName name) :
    isAbsolute name = false := by
  rw [isAbsolute, decide_eq_false_iff_not]
  intro hhead
  exact hname.no_slash (List.mem_of_mem_head? hhead)

/-- The name comes alone or after a slash. -/
theorem toList_joinPath {name : String} (hname : IsEntryName name)
    (base : String) :
    (joinPath base name).toList = name.toList ∨
      ∃ front, (joinPath base name).toList = front ++ '/' :: name.toList := by
  rw [joinPath, if_neg (Bool.eq_false_iff.mp hname.not_isAbsolute)]
  by_cases hempty : base.isEmpty
  · left
    rw [String.isEmpty_iff.mp hempty]
    simp
  · right
    by_cases hlast : base.toList.getLast? = some '/'
    · obtain ⟨front, hfront⟩ := List.getLast?_eq_some_iff.mp hlast
      refine ⟨front, ?_⟩
      simp [hempty, hfront]
    · refine ⟨base.toList, ?_⟩
      simp [hempty, hlast]

/-- The name is the last part. -/
theorem pathParts_joinPath {name : String} (hname : IsEntryName name)
    (base : String) : ∃ front, pathParts (joinPath base name) = front ++ [name] := by
  have hsegments := segments_of_not_mem hname.no_slash
  rcases toList_joinPath hname base with hpath | ⟨front, hpath⟩
  · refine ⟨[], ?_⟩
    rw [pathParts, hpath, hsegments]
    simp
  · refine ⟨(segments '/' front).map String.ofList, ?_⟩
    rw [pathParts, hpath, segments_append_cons, hsegments, List.map_append]
    simp

/-- Lengthening a joined path lengthens its name. -/
theorem joinPath_append {base name ending : String} (hname : IsEntryName name) :
    joinPath base name ++ ending = joinPath base (name ++ ending) := by
  have habsolute : isAbsolute (name ++ ending) = false := by
    have hhead := hname.not_isAbsolute
    rw [isAbsolute, decide_eq_false_iff_not] at hhead ⊢
    rw [String.toList_append, List.head?_append]
    cases hfirst : name.toList.head? with
    | none =>
        rw [List.head?_eq_none_iff, String.toList_eq_nil_iff] at hfirst
        exact absurd hfirst hname.ne_empty
    | some c =>
        rw [hfirst] at hhead
        exact hhead
  simp only [joinPath, hname.not_isAbsolute, habsolute, Bool.false_eq_true,
    ↓reduceIte]
  split
  · rw [String.append_assoc]
  · rw [String.append_assoc, String.append_assoc]

/-! ### The parent of a path -/

/-- Does a part lead on?  An empty one and `.` lead nowhere. -/
def isBusyPart (part : String) : Bool :=
  !isIdlePart part.toList

theorem isBusyPart_of_ne {part : String} (hempty : part ≠ "") (hdot : part ≠ ".") :
    isBusyPart part = true := by
  have hchars : part.toList ≠ ['.'] := fun hchars => hdot (String.toList_inj.mp hchars)
  simp [isBusyPart, isIdlePart, hempty, hchars]

/-- The parts of a path that lead on. -/
def busyParts (path : String) : List String :=
  (pathParts path).filter isBusyPart

/-- No part leads nowhere behind one that leads on. -/
def EndsBusy (parts : List String) : Prop :=
  parts.filter isBusyPart = [] ∨ ∃ front last, parts = front ++ [last] ∧ isBusyPart last = true

theorem EndsBusy.of_cons {part : String} {rest : List String}
    (hends : EndsBusy (part :: rest)) : EndsBusy rest := by
  rcases hends with hidle | ⟨front, last, hparts, hlast⟩
  · left
    by_cases hpart : isBusyPart part
    · rw [List.filter_cons_of_pos hpart] at hidle
      cases hidle
    · rwa [List.filter_cons_of_neg hpart] at hidle
  · cases front with
    | nil =>
        obtain ⟨-, rfl⟩ := List.cons.inj hparts
        exact .inl rfl
    | cons first more =>
        obtain ⟨-, rfl⟩ := List.cons.inj hparts
        exact .inr ⟨more, last, rfl, hlast⟩

/-- Behind a part that leads on there is nothing, or another such part. -/
theorem EndsBusy.eq_nil_or_exists {part : String} {rest : List String}
    (hends : EndsBusy (part :: rest)) (hpart : isBusyPart part = true) :
    rest = [] ∨ ∃ last ∈ rest, isBusyPart last = true := by
  rcases hends with hidle | ⟨front, last, hparts, hlast⟩
  · rw [List.filter_cons_of_pos hpart] at hidle
    cases hidle
  · cases front with
    | nil => exact .inl (List.cons.inj hparts).2
    | cons first more =>
        obtain ⟨-, rfl⟩ := List.cons.inj hparts
        exact .inr ⟨last, by simp, hlast⟩

theorem filter_map_ofList (parts : List (List Char)) :
    (parts.map String.ofList).filter isBusyPart =
      (parts.filter fun part => !isIdlePart part).map String.ofList := by
  rw [List.filter_map]
  congr 2
  funext part
  simp [isBusyPart]

/-- Without its last idle parts, a list is empty or ends with one that leads on. -/
theorem dropIdleParts_eq (parts : List (List Char)) :
    ∃ idle, parts = dropIdleParts parts ++ idle ∧ (∀ part ∈ idle, isIdlePart part = true) ∧
      (dropIdleParts parts = [] ∨
        ∃ front last, dropIdleParts parts = front ++ [last] ∧ isIdlePart last = false) := by
  refine ⟨(parts.reverse.takeWhile isIdlePart).reverse, ?_, ?_, ?_⟩
  · rw [dropIdleParts, ← List.reverse_append, List.takeWhile_append_dropWhile,
      List.reverse_reverse]
  · intro part hpart
    rw [List.mem_reverse] at hpart
    exact List.all_eq_true.mp List.all_takeWhile part hpart
  · rw [dropIdleParts]
    cases hkept : parts.reverse.dropWhile isIdlePart with
    | nil => exact .inl rfl
    | cons last others =>
        refine .inr ⟨others.reverse, last, List.reverse_cons, ?_⟩
        have hlast := List.head_dropWhile_not isIdlePart (l := parts.reverse)
          (by simp [hkept])
        simpa [hkept] using hlast

/-- What is split off the start of a path. -/
theorem splitAnchor_cases (path : List Char) :
    (∃ rest, path = '/' :: rest ∧ splitAnchor path = (['/'], rest)) ∨
      (path = ['.'] ∧ splitAnchor path = (['.'], [])) ∨
      (∃ rest, path = '.' :: '/' :: rest ∧ splitAnchor path = (['.'], '/' :: rest)) ∨
      (path.head? ≠ some '/' ∧ splitAnchor path = ([], path)) := by
  rw [splitAnchor.eq_def]
  split
  · exact .inl ⟨_, rfl, rfl⟩
  · exact .inr (.inl ⟨rfl, rfl⟩)
  · exact .inr (.inr (.inl ⟨_, rfl, rfl⟩))
  · next hslash _ _ =>
      refine .inr (.inr (.inr ⟨fun hhead => ?_, rfl⟩))
      obtain ⟨rest, hrest⟩ := List.head?_eq_some_iff.mp hhead
      exact hslash rest hrest

/-- Behind its anchor, a path has the same last part and the same parts that lead on. -/
theorem exists_segments_splitAnchor {path name : List Char} {front : List (List Char)}
    (hparts : segments '/' path = front ++ [name]) (hname : isIdlePart name = false) :
    ∃ rest, segments '/' (splitAnchor path).2 = rest ++ [name] ∧
      (rest.filter fun part => !isIdlePart part) =
        front.filter fun part => !isIdlePart part := by
  rcases splitAnchor_cases path with ⟨back, rfl, hsplit⟩ | ⟨rfl, hsplit⟩ |
    ⟨back, rfl, hsplit⟩ | ⟨_, hsplit⟩
  · rw [segments, if_pos rfl] at hparts
    cases front with
    | nil => exact absurd (List.cons.inj hparts).2 (segments_ne_nil '/' back)
    | cons first more =>
        obtain ⟨rfl, hback⟩ := List.cons.inj hparts
        exact ⟨more, by rw [hsplit]; exact hback, by simp [isIdlePart]⟩
  · cases front with
    | nil =>
        obtain ⟨rfl, -⟩ := List.cons.inj hparts
        cases hname
    | cons first more => simp [segments] at hparts
  · have hdot : segments '/' ('.' :: '/' :: back) = ['.'] :: segments '/' back := by
      simp [segments]
    rw [hdot] at hparts
    cases front with
    | nil => exact absurd (List.cons.inj hparts).2 (segments_ne_nil '/' back)
    | cons first more =>
        obtain ⟨rfl, hback⟩ := List.cons.inj hparts
        exact ⟨[] :: more, by simp [hsplit, segments, hback], by simp [isIdlePart]⟩
  · exact ⟨front, by rw [hsplit, hparts], rfl⟩

theorem dropIdleParts_concat (front : List (List Char)) {last : List Char}
    (hlast : isIdlePart last = false) : dropIdleParts (front ++ [last]) = front ++ [last] := by
  simp [dropIdleParts, hlast]

/-- The parts that are kept behind an anchor lead on as before. -/
theorem parts_of_parent {path : List Char} {kept idle : List (List Char)} {last : List Char}
    (hbody : segments '/' (splitAnchor path).2 = kept ++ idle ++ [last])
    (hkept : kept = [] ∨ ∃ front last, kept = front ++ [last] ∧ isIdlePart last = false) :
    let parts := segments '/' ((splitAnchor path).1 ++ joinSegments '/' kept)
    (parts.filter fun part => !isIdlePart part) = (kept.filter fun part => !isIdlePart part) ∧
      ((parts.filter fun part => !isIdlePart part) = [] ∨
        ∃ front last, parts = front ++ [last] ∧ isIdlePart last = false) ∧
      (((splitAnchor path).1 ++ joinSegments '/' kept).head? = some '/' ↔
        path.head? = some '/') := by
  have hslash : ∀ part ∈ kept, '/' ∉ part := by
    intro part hpart
    have hmem : part ∈ segments '/' (splitAnchor path).2 := by
      rw [hbody]
      simp [hpart]
    exact not_mem_of_mem_segments hmem
  rcases hkept with rfl | ⟨front, final, rfl, hfinal⟩
  · rcases splitAnchor_cases path with ⟨rest, rfl, hsplit⟩ | ⟨rfl, hsplit⟩ |
      ⟨rest, rfl, hsplit⟩ | ⟨hhead, hsplit⟩ <;>
      simp [hsplit, joinSegments, segments, isIdlePart]
    exact hhead
  have hjoin := segments_joinSegments (by simp) hslash
  rcases splitAnchor_cases path with ⟨rest, rfl, hsplit⟩ | ⟨rfl, hsplit⟩ |
    ⟨rest, rfl, hsplit⟩ | ⟨-, hsplit⟩
  · rw [hsplit]
    refine ⟨by simp [segments, hjoin, isIdlePart], .inr ⟨[] :: front, final, ?_, hfinal⟩, by simp⟩
    simp [segments, hjoin]
  · rw [hsplit] at hbody
    have hlength := congrArg List.length hbody
    simp [segments] at hlength
    omega
  · rw [hsplit] at hbody ⊢
    cases front with
    | nil =>
        simp only [segments, ↓reduceIte, List.nil_append, List.cons_append,
          List.cons.injEq] at hbody
        rw [← hbody.1] at hfinal
        cases hfinal
    | cons first more =>
        simp only [segments, ↓reduceIte, List.cons_append, List.cons.injEq] at hbody
        obtain ⟨rfl, -⟩ := hbody
        -- the dot of the anchor comes in front of the empty first part
        have hparts : segments '/' (['.'] ++ joinSegments '/' ([] :: more ++ [final])) =
            ['.'] :: (more ++ [final]) := by
          rw [List.singleton_append, segments, if_neg (by decide), hjoin]
          rfl
        rw [hparts]
        exact ⟨by simp [isIdlePart], .inr ⟨['.'] :: more, final, rfl, hfinal⟩, by simp⟩
  · rw [hsplit, List.append_assoc] at hbody
    rw [hsplit, List.nil_append, hjoin]
    have hblank : front ++ [final] ≠ [[]] := by
      intro hsame
      have hempty : final = [] := by simpa using congrArg List.getLast? hsame
      rw [hempty] at hfinal
      cases hfinal
    exact ⟨rfl, .inr ⟨front, final, rfl, hfinal⟩,
      head?_joinSegments_iff (by simp) hblank hbody⟩

/-- The path without its last part, if that leads on: it starts where the path starts,
has its other parts and ends with one that leads on, if it has any. -/
theorem exists_parentPath? {path name : String} {front : List String}
    (hparts : pathParts path = front ++ [name]) (hname : isBusyPart name = true) :
    ∃ parent, parentPath? path = some parent ∧ isAbsolute parent = isAbsolute path ∧
      busyParts parent = front.filter isBusyPart ∧ EndsBusy (pathParts parent) := by
  obtain ⟨front, last, hsegments, rfl, hlast⟩ := List.map_eq_append_iff.mp hparts
  obtain ⟨name, rfl, rfl⟩ := List.map_eq_singleton_iff.mp hlast
  have hbusy : isIdlePart name = false := by simpa [isBusyPart] using hname
  obtain ⟨rest, hbody, hrest⟩ := exists_segments_splitAnchor hsegments hbusy
  obtain ⟨idle, hidle, hleading, hends⟩ := dropIdleParts_eq rest
  obtain ⟨hfilter, hlast, habsolute⟩ := parts_of_parent (hidle ▸ hbody) hends
  have hparent : parentPath? path =
      some (String.ofList ((splitAnchor path.toList).1 ++
        joinSegments '/' (dropIdleParts rest))) := by
    simp only [parentPath?, hbody, dropIdleParts_concat rest hbusy]
    split
    · next hnil => simp at hnil
    · rw [List.dropLast_concat]
  have hkept : ((dropIdleParts rest).filter fun part => !isIdlePart part) =
      rest.filter fun part => !isIdlePart part := by
    conv_rhs => rw [hidle, List.filter_append]
    simpa using hleading
  refine ⟨_, hparent, ?_, ?_, ?_⟩
  · simp only [isAbsolute, String.toList_ofList, habsolute]
  · rw [busyParts, pathParts, String.toList_ofList, filter_map_ofList, hfilter, hkept, hrest,
      filter_map_ofList]
  · rw [EndsBusy, pathParts, String.toList_ofList, filter_map_ofList, List.map_eq_nil_iff]
    refine hlast.imp id ?_
    rintro ⟨front, last, hparts, hlast⟩
    exact ⟨front.map String.ofList, String.ofList last, by simp [hparts],
      by simp [isBusyPart, hlast]⟩

end LogCorpus
