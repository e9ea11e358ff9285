/-
Numbered records.

Numbering puts the number behind the stem of a path and keeps its directory and
its ending.  The occurrences of one record get different numbers, so two of them
share a destination only where the stems of two records differ by digits that
the numbers make up for.
-/
import LogCorpus.Corpus.Excision
import LogCorpus.Proofs.Lists
import LogCorpus.Proofs.Text.Segments
import Mathlib.Data.List.Nodup

namespace LogCorpus

/-! ### Parts of a path -/

/-- The part of a path up to its last slash. -/
def directoryOf (path : String) : List Char :=
  (splitDirectory path.toList).1

/-- The part of a path to which a number is added. -/
def stemOf (path : String) : List Char :=
  (splitStem (splitDirectory path.toList).2).1

/-- The part of a path behind its stem. -/
def endingOf (path : String) : List Char :=
  (splitStem (splitDirectory path.toList).2).2

theorem numberedPath_eq (path : String) (number : Nat) :
    numberedPath path number =
      String.ofList (directoryOf path ++
        ((stemOf path ++ Nat.toDigits 10 number) ++ endingOf path)) := by
  simp only [numberedPath, directoryOf, stemOf, endingOf, List.append_assoc]

/-- Three texts that are a directory, a stem and an ending. -/
structure IsCut (directory stem ending : List Char) : Prop where
  directory : directory = [] ∨ directory.getLast? = some '/'
  name : '/' ∉ stem ++ ending
  stem : ending = [] ∧ ('.' ∉ stem ∨ stem.head? = some '.') ∨
    ending.head? = some '.' ∧ '.' ∉ stem ∧ stem ≠ []

theorem splitDirectory_append {directory name : List Char}
    (hdirectory : directory = [] ∨ directory.getLast? = some '/')
    (hname : '/' ∉ name) :
    splitDirectory (directory ++ name) = (directory, name) := by
  have hback : directory.reverse = [] ∨ directory.reverse.head? = some '/' := by
    rwa [List.reverse_eq_nil_iff, List.head?_reverse]
  have hfront : '/' ∉ name.reverse := by
    rwa [List.mem_reverse]
  simp only [splitDirectory, List.reverse_append, takeWhile_ne_append hfront hback,
    List.reverse_reverse, List.length_append, Nat.add_sub_cancel, List.take_left]

theorem splitDirectory_eq (path : List Char) :
    ∃ directory name, splitDirectory path = (directory, name) ∧
      path = directory ++ name ∧ '/' ∉ name ∧
      (directory = [] ∨ directory.getLast? = some '/') := by
  have hsplit : path.reverse = path.reverse.takeWhile (· ≠ '/') ++
      path.reverse.dropWhile (· ≠ '/') := List.takeWhile_append_dropWhile.symm
  have hpath : path = (path.reverse.dropWhile (· ≠ '/')).reverse ++
      (path.reverse.takeWhile (· ≠ '/')).reverse := by
    rw [← List.reverse_append, ← hsplit, List.reverse_reverse]
  have hname : '/' ∉ (path.reverse.takeWhile (· ≠ '/')).reverse := by
    rw [List.mem_reverse]
    exact not_mem_takeWhile_ne '/' path.reverse
  have hdirectory := dropWhile_ne_eq '/' path.reverse
  rw [← List.reverse_eq_nil_iff, ← List.getLast?_reverse] at hdirectory
  refine ⟨_, _, ?_, hpath, hname, hdirectory⟩
  conv_lhs => rw [hpath]
  exact splitDirectory_append hdirectory hname

theorem IsCut.splitStem_append {directory stem ending : List Char}
    (hcut : IsCut directory stem ending) :
    splitStem (stem ++ ending) = (stem, ending) := by
  rcases hcut.stem with ⟨rfl, hplain | hhidden⟩ | ⟨hending, hplain, hne⟩
  · have htake : (stem ++ []).takeWhile (· ≠ '.') = stem :=
      takeWhile_ne_append hplain (.inl rfl)
    have hdrop : (stem ++ []).dropWhile (· ≠ '.') = [] :=
      dropWhile_ne_append hplain (.inl rfl)
    rw [List.append_nil] at htake hdrop ⊢
    simp only [splitStem, htake, hdrop]
    by_cases hstem : stem = []
    · rw [if_pos hstem]
    · rw [if_neg hstem]
  · obtain ⟨others, rfl⟩ := List.head?_eq_some_iff.mp hhidden
    simp [splitStem]
  · have htake := takeWhile_ne_append hplain (.inr hending)
    have hdrop := dropWhile_ne_append hplain (.inr hending)
    simp only [splitStem, htake, hdrop, if_neg hne]

theorem splitStem_eq (name : List Char) :
    ∃ stem ending, splitStem name = (stem, ending) ∧ name = stem ++ ending ∧
      (ending = [] ∧ ('.' ∉ stem ∨ stem.head? = some '.') ∨
        ending.head? = some '.' ∧ '.' ∉ stem ∧ stem ≠ []) := by
  have hname : name.takeWhile (· ≠ '.') ++ name.dropWhile (· ≠ '.') = name :=
    List.takeWhile_append_dropWhile
  by_cases hstem : name.takeWhile (· ≠ '.') = []
  · refine ⟨name, [], by simp only [splitStem, if_pos hstem], by simp, .inl ⟨rfl, ?_⟩⟩
    rw [hstem, List.nil_append] at hname
    rcases dropWhile_ne_eq '.' name with hnil | hhead
    · rw [← hname, hnil]
      exact .inl List.not_mem_nil
    · rw [hname] at hhead
      exact .inr hhead
  · refine ⟨_, _, by simp only [splitStem, if_neg hstem], hname.symm, ?_⟩
    have hplain := not_mem_takeWhile_ne '.' name
    rcases dropWhile_ne_eq '.' name with hnil | hhead
    · exact .inl ⟨hnil, .inl hplain⟩
    · exact .inr ⟨hhead, hplain, hstem⟩

theorem isCut_path (path : String) :
    IsCut (directoryOf path) (stemOf path) (endingOf path) := by
  obtain ⟨directory, name, hsplit, _, hslash, hdirectory⟩ :=
    splitDirectory_eq path.toList
  obtain ⟨stem, ending, hstem, hname, hcut⟩ := splitStem_eq name
  rw [directoryOf, stemOf, endingOf, hsplit]
  simp only [hstem]
  exact ⟨hdirectory, hname ▸ hslash, hcut⟩

/-- The parts of a path that is put together from a cut. -/
theorem IsCut.parts_eq {directory stem ending : List Char}
    (hcut : IsCut directory stem ending) :
    let path := String.ofList (directory ++ (stem ++ ending))
    directoryOf path = directory ∧ stemOf path = stem ∧ endingOf path = ending := by
  intro path
  have hsplit := splitDirectory_append hcut.directory hcut.name
  simp only [path, directoryOf, stemOf, endingOf, String.toList_ofList, hsplit,
    hcut.splitStem_append, and_self]

/-- A number behind the stem changes nothing else about the cut. -/
theorem IsCut.numbered {directory stem ending : List Char}
    (hcut : IsCut directory stem ending) (number : Nat) :
    IsCut directory (stem ++ Nat.toDigits 10 number) ending := by
  have hslash := not_mem_toDigits (c := '/') (by decide) number
  have hdot := not_mem_toDigits (c := '.') (by decide) number
  obtain ⟨hdirectory, hname, hstem⟩ := hcut
  refine ⟨hdirectory, ?_, ?_⟩
  · simp only [List.mem_append, not_or] at hname ⊢
    exact ⟨⟨hname.1, hslash⟩, hname.2⟩
  · rcases hstem with ⟨hending, hplain | hhidden⟩ | ⟨hending, hplain, hne⟩
    · exact .inl ⟨hending, .inl (by simp [hplain, hdot])⟩
    · obtain ⟨others, rfl⟩ := List.head?_eq_some_iff.mp hhidden
      exact .inl ⟨hending, .inr rfl⟩
    · exact .inr ⟨hending, by simp [hplain, hdot], by simp [hne]⟩

/-- Two numbered paths are equal if they have the same directory and ending and the
same stem with its number. -/
theorem numberedPath_eq_iff {path other : String} {number count : Nat} :
    numberedPath path number = numberedPath other count ↔
      directoryOf path = directoryOf other ∧
        stemOf path ++ Nat.toDigits 10 number = stemOf other ++ Nat.toDigits 10 count ∧
        endingOf path = endingOf other := by
  rw [numberedPath_eq, numberedPath_eq]
  constructor
  · intro heq
    have hleft := ((isCut_path path).numbered number).parts_eq
    have hright := ((isCut_path other).numbered count).parts_eq
    rw [heq] at hleft
    exact ⟨hleft.1.symm.trans hright.1, hleft.2.1.symm.trans hright.2.1,
      hleft.2.2.symm.trans hright.2.2⟩
  · rintro ⟨hdirectory, hstem, hending⟩
    rw [hdirectory, hstem, hending]

theorem eq_of_toDigits_eq {number count : Nat}
    (heq : Nat.toDigits 10 number = Nat.toDigits 10 count) : number = count := by
  rw [← Nat.ofDigitChars_ten_toDigits (n := number), heq,
    Nat.ofDigitChars_ten_toDigits]

/-! ### Numbers -/

/-- Every path with its number. -/
def numberings (counts : Std.TreeMap String Nat) :
    List String → List (String × Nat)
  | [] => []
  | path :: rest =>
      let number := counts.getD path 0 + 1
      (path, number) :: numberings (counts.insert path number) rest

theorem numberPaths_eq_map (counts : Std.TreeMap String Nat) (paths : List String) :
    numberPaths counts paths =
      (numberings counts paths).map fun entry => numberedPath entry.1 entry.2 := by
  induction paths generalizing counts with
  | nil => rfl
  | cons head tail ih =>
      rw [numberPaths, numberings, List.map_cons, ih]

theorem mem_numberings_iff {counts : Std.TreeMap String Nat} {paths : List String}
    {path : String} {number : Nat} :
    (path, number) ∈ numberings counts paths ↔
      counts.getD path 0 < number ∧
        number ≤ counts.getD path 0 + paths.count path := by
  induction paths generalizing counts with
  | nil =>
      simp only [numberings, List.not_mem_nil, List.count_nil, false_iff]
      omega
  | cons head tail ih =>
      rw [numberings, List.mem_cons, ih, Std.TreeMap.getD_insert, List.count_cons]
      by_cases heq : head = path
      · subst heq
        simp
        omega
      · have hne : compare head path ≠ .eq :=
          fun h => heq (Std.LawfulEqOrd.eq_of_compare h)
        simp [hne, heq, Ne.symm heq]

theorem nodup_numberings (counts : Std.TreeMap String Nat) (paths : List String) :
    (numberings counts paths).Nodup := by
  induction paths generalizing counts with
  | nil => exact List.nodup_nil
  | cons head tail ih =>
      rw [numberings, List.nodup_cons]
      refine ⟨fun hmem => ?_, ih _⟩
      have hlt := (mem_numberings_iff.mp hmem).1
      rw [Std.TreeMap.getD_insert_self] at hlt
      exact Nat.lt_irrefl _ hlt

/-! ### Destinations -/

/-- How many of the occurrences are in the record at a path. -/
def countIn (occurrences : List Occurrence) (path : String) : Nat :=
  (occurrences.map Occurrence.graphPath).count path

theorem mem_numberings_empty_iff {paths : List String} {path : String} {number : Nat} :
    (path, number) ∈ numberings ∅ paths ↔ 1 ≤ number ∧ number ≤ paths.count path := by
  rw [mem_numberings_iff, Std.TreeMap.getD_emptyc, Nat.zero_add]
  rfl

/-- The destinations are distinct texts exactly if there are no two paths with the same
directory and the same ending whose stems, each with one of its numbers, are the
same text.  Distinct texts may still lead to one place, as those of `./Foo.proto` and
`Foo.proto` do. -/
theorem nodup_destinations_iff (occurrences : List Occurrence) :
    (destinations occurrences).Nodup ↔
      ∀ path other number count, path ≠ other →
        1 ≤ number → number ≤ countIn occurrences path →
        1 ≤ count → count ≤ countIn occurrences other →
        directoryOf path = directoryOf other → endingOf path = endingOf other →
        stemOf path ++ Nat.toDigits 10 number ≠
          stemOf other ++ Nat.toDigits 10 count := by
  rw [destinations, numberPaths_eq_map,
    List.nodup_map_iff_inj_on (nodup_numberings ∅ _)]
  constructor
  · intro hinjective path other number count hne hnumber hle hcount hle' hdirectory
      hending hstem
    have heq := hinjective (path, number) (mem_numberings_empty_iff.mpr ⟨hnumber, hle⟩)
      (other, count) (mem_numberings_empty_iff.mpr ⟨hcount, hle'⟩)
      (numberedPath_eq_iff.mpr ⟨hdirectory, hstem, hending⟩)
    exact hne (congrArg Prod.fst heq)
  · rintro hapart ⟨path, number⟩ hmem ⟨other, count⟩ hmem' heq
    obtain ⟨hnumber, hle⟩ := mem_numberings_empty_iff.mp hmem
    obtain ⟨hcount, hle'⟩ := mem_numberings_empty_iff.mp hmem'
    obtain ⟨hdirectory, hstem, hending⟩ := numberedPath_eq_iff.mp heq
    by_cases hsame : path = other
    · subst hsame
      have hsame : number = count := eq_of_toDigits_eq (List.append_cancel_left hstem)
      rw [hsame]
    · exact absurd hstem (hapart path other number count hsame hnumber hle hcount hle'
        hdirectory hending)

/-- Eleven occurrences in one record and one in another whose stem ends with a one:
the last two destinations are the same. -/
theorem destinations_of_twelve :
    let occurrence (graphPath : String) : Occurrence :=
      ⟨graphPath, .info, "m", some 1, none⟩
    let occurrences : List Occurrence :=
      List.replicate 11 (occurrence "Foo.proto") ++ [occurrence "Foo1.proto"]
    ¬ (destinations occurrences).Nodup ∧
      (destinations occurrences).drop 10 = ["Foo11.proto", "Foo11.proto"] := by
  decide +kernel

end LogCorpus
