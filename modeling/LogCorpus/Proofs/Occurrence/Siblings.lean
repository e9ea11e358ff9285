/-
Parts and groups of numbered paths.

Numbering keeps the directories of a path and makes its last part a name.  The group of a
path that ends in a name has the stem and the ending to which a number is added.  The
digits of the number are added to those at the end of the stem, and the group forgets
them all, so a numbered record is in the group of its source.
-/
import LogCorpus.Proofs.Occurrence.Numbering
import LogCorpus.Proofs.Storage.Joining

namespace LogCorpus

/-! ### Parts of numbered paths -/

section

variable {directory : List Char}
  (hdirectory : directory = [] ∨ directory.getLast? = some '/')
include hdirectory

/-- A directory and a name behind it: the name is the last part. -/
theorem exists_segments_append :
    ∃ front, ∀ name : List Char, '/' ∉ name →
      segments '/' (directory ++ name) = front ++ [name] := by
  rcases hdirectory with rfl | hlast
  · refine ⟨[], fun name hname => ?_⟩
    rw [List.nil_append, segments_of_not_mem hname]
    rfl
  · obtain ⟨front, rfl⟩ := List.getLast?_eq_some_iff.mp hlast
    refine ⟨segments '/' front, fun name hname => ?_⟩
    rw [List.append_assoc, List.singleton_append, segments_append_cons,
      segments_of_not_mem hname]

/-- The directory alone decides whether a path is absolute. -/
theorem isAbsolute_append {name : List Char} (hname : '/' ∉ name) :
    isAbsolute (String.ofList (directory ++ name)) =
      (directory.head? = some '/' : Bool) := by
  rw [isAbsolute, String.toList_ofList]
  cases directory with
  | nil =>
      have hfirst : name.head? ≠ some '/' :=
        fun hhead => hname (List.mem_of_mem_head? hhead)
      rw [List.nil_append, decide_eq_false hfirst]
      rfl
  | cons c others => rfl

end

theorem toList_eq_cut (path : String) :
    path.toList = directoryOf path ++ (stemOf path ++ endingOf path) := by
  obtain ⟨directory, name, hsplit, hpath, _⟩ := splitDirectory_eq path.toList
  obtain ⟨stem, ending, hstem, hname, _⟩ := splitStem_eq name
  rw [directoryOf, stemOf, endingOf, hsplit]
  simp only [hstem]
  rw [← hname, hpath]

/-- A text with a digit in it names an entry. -/
theorem isEntryName_of_mem_digit {name : List Char} (hslash : '/' ∉ name) {c : Char}
    (hmem : c ∈ name) (hdigit : c.isDigit) : IsEntryName (String.ofList name) := by
  -- the texts that are no names have no digits
  have hne {text : String} (htext : ∀ d ∈ text.toList, d.isDigit = false) :
      String.ofList name ≠ text := by
    rintro rfl
    rw [String.toList_ofList] at htext
    rw [htext c hmem] at hdigit
    cases hdigit
  exact ⟨by rwa [String.toList_ofList], hne (by simp), hne (by simp),
    hne (by simp)⟩

/-- Numbering keeps the directories of a path and makes its last part a name. -/
theorem exists_pathParts_numberedPath (path : String) :
    ∃ front last, pathParts path = front ++ [last] ∧
      ∀ number, ∃ name, IsEntryName name ∧
        pathParts (numberedPath path number) = front ++ [name] := by
  have hcut := isCut_path path
  obtain ⟨front, hfront⟩ := exists_segments_append hcut.directory
  have hparts {name : List Char} (hname : '/' ∉ name) :
      pathParts (String.ofList (directoryOf path ++ name)) =
        front.map String.ofList ++ [String.ofList name] := by
    rw [pathParts, String.toList_ofList, hfront name hname, List.map_append]
    rfl
  have hpath := hparts hcut.name
  rw [← toList_eq_cut, String.ofList_toList] at hpath
  refine ⟨_, _, hpath, fun number => ?_⟩
  have hname := (hcut.numbered number).name
  obtain ⟨digit, hdigit⟩ :=
    List.exists_mem_of_ne_nil _ (Nat.toDigits_ne_nil (n := number) (b := 10))
  rw [numberedPath_eq]
  refine ⟨_, isEntryName_of_mem_digit hname ?_
    (Nat.isDigit_of_mem_toDigits (by decide) (by decide) hdigit), hparts hname⟩
  exact List.mem_append_left _ (List.mem_append_right _ hdigit)

theorem isAbsolute_numberedPath (path : String) (number : Nat) :
    isAbsolute (numberedPath path number) = isAbsolute path := by
  have hcut := isCut_path path
  rw [numberedPath_eq, isAbsolute_append hcut.directory (hcut.numbered number).name,
    ← isAbsolute_append hcut.directory hcut.name, ← toList_eq_cut, String.ofList_toList]

/-! ### Groups of numbered paths -/

/-- The last part of a path is its stem with its ending. -/
theorem exists_segments_eq_stem (path : String) :
    ∃ front, segments '/' path.toList = front ++ [stemOf path ++ endingOf path] := by
  have hcut := isCut_path path
  obtain ⟨front, hfront⟩ := exists_segments_append hcut.directory
  exact ⟨front, by rw [toList_eq_cut, hfront _ hcut.name]⟩

theorem endsInName_iff (path : String) :
    endsInName path ↔
      stemOf path ++ endingOf path ≠ [] ∧ stemOf path ++ endingOf path ≠ ['.'] ∧
        stemOf path ++ endingOf path ≠ ['.', '.'] := by
  obtain ⟨front, hsegments⟩ := exists_segments_eq_stem path
  have hparts : pathParts path =
      front.map String.ofList ++ [String.ofList (stemOf path ++ endingOf path)] := by
    rw [pathParts, hsegments, List.map_append]
    rfl
  have hne (name other : List Char) : String.ofList name ≠ String.ofList other ↔
      name ≠ other := not_congr String.ofList_inj
  rw [endsInName_eq hparts, decide_eq_true_iff]
  exact and_congr (hne _ []) (and_congr (hne _ ['.']) (hne _ ['.', '.']))

/-- The file name of a path that ends in a name. -/
theorem fileName?_eq_some {path : String} (hpath : endsInName path) :
    fileName? path.toList = some (stemOf path ++ endingOf path) := by
  obtain ⟨front, hsegments⟩ := exists_segments_eq_stem path
  obtain ⟨hempty, hdot, hdots⟩ := (endsInName_iff path).mp hpath
  have hkept : decide (stemOf path ++ endingOf path ≠ [] ∧
      stemOf path ++ endingOf path ≠ ['.']) = true := decide_eq_true ⟨hempty, hdot⟩
  have hname : decide (stemOf path ++ endingOf path ≠ ['.', '.']) = true :=
    decide_eq_true hdots
  simp only [fileName?, hsegments, List.filter_append, List.filter_singleton, hkept,
    cond_true, List.getLast?_concat, Option.filter_some, hname, if_true]

/-- The group of a path that ends in a name, by its stem and ending. -/
theorem groupKey_eq {path : String} (hpath : endsInName path) :
    groupKey path =
      String.ofList (dropFinalDigits (stemOf path) ++ endingOf path) := by
  simp only [groupKey, fileName?_eq_some hpath, Option.getD_some,
    (isCut_path path).splitStem_append]

theorem dropFinalDigits_append_toDigits (text : List Char) (number : Nat) :
    dropFinalDigits (text ++ Nat.toDigits 10 number) = dropFinalDigits text := by
  have hdigits : ∀ c ∈ (Nat.toDigits 10 number).reverse, c.isDigit := fun c hc =>
    Nat.isDigit_of_mem_toDigits (by decide) (by decide) (List.mem_reverse.mp hc)
  rw [dropFinalDigits, List.reverse_append, List.dropWhile_append_of_pos hdigits,
    dropFinalDigits]

/-- A numbered path ends in a name, whatever it is made from. -/
theorem endsInName_numberedPath (path : String) (number : Nat) :
    endsInName (numberedPath path number) := by
  obtain ⟨front, _, _, hnumbered⟩ := exists_pathParts_numberedPath path
  obtain ⟨name, hname, hparts⟩ := hnumbered number
  rw [endsInName_eq hparts, decide_eq_true_iff]
  exact ⟨hname.ne_empty, hname.ne_dot, hname.ne_dots⟩

/-- A number behind the stem does not change the group. -/
theorem groupKey_numberedPath {path : String} (hpath : endsInName path) (number : Nat) :
    groupKey (numberedPath path number) = groupKey path := by
  have hparts := ((isCut_path path).numbered number).parts_eq
  rw [groupKey_eq (endsInName_numberedPath path number), groupKey_eq hpath,
    numberedPath_eq, hparts.2.1, hparts.2.2, dropFinalDigits_append_toDigits]

/-- Different numbers make different paths. -/
theorem numberedPath_inj {path : String} {number count : Nat} :
    numberedPath path number = numberedPath path count ↔ number = count := by
  rw [numberedPath_eq_iff]
  constructor
  · rintro ⟨_, hstem, _⟩
    exact eq_of_toDigits_eq (List.append_cancel_left hstem)
  · rintro rfl
    exact ⟨rfl, rfl, rfl⟩

end LogCorpus
