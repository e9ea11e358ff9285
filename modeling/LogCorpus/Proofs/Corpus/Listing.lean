/-
The listing of a corpus.

Records are listed in the order of the names that lead to them: no record is visited
twice, and those of one directory lie together.  What is listed is what can be read of
the names.  Where names are spelled like texts and have no backslash, they can be read
off the path again.
-/
import LogCorpus.Corpus.Basic
import LogCorpus.Proofs.Stateful
import LogCorpus.Proofs.Storage.Path

namespace LogCorpus

/-- Names in front of both locations do not count for their order. -/
theorem compare_append_left (front first second : Location) :
    compare (front ++ first) (front ++ second) = compare first second := by
  induction front with
  | nil => rfl
  | cons name front ih =>
      have hself : compare name name = .eq := Std.ReflCmp.compare_self
      rw [List.compare_eq_compareLex] at ih ⊢
      rw [List.cons_append, List.cons_append, List.compareLex_cons_cons, ih, hself]
      rfl

namespace Disk

theorem eq_append_of_drop_eq {place found names : Location} {entry other : Entry}
    (hnames : (if place.isPrefixOf found then some (found.drop place.length, entry)
      else none) = some (names, other)) : found = place ++ names ∧ entry = other := by
  by_cases hfront : place.isPrefixOf found
  · rw [if_pos hfront, Option.some_inj, Prod.mk.injEq] at hnames
    rw [← hnames.1]
    exact ⟨(List.prefix_iff_eq_append.mp (List.isPrefixOf_iff_prefix.mp hfront)).symm,
      hnames.2⟩
  · rw [if_neg hfront] at hnames
    cases hnames

/-- What is below a location is visited in the order of the names. -/
theorem entriesBelow_sorted (disk : Disk) (place : Location) :
    (disk.entriesBelow place).Pairwise fun first second =>
      compare first.1 second.1 = .lt := by
  refine List.Pairwise.filterMap _ ?_ disk.entries.ordered_keys_toList
  rintro ⟨found, entry⟩ ⟨other, otherEntry⟩ hlt ⟨names, _⟩ hnames ⟨otherNames, _⟩ hother
  rwa [(eq_append_of_drop_eq hnames).1, (eq_append_of_drop_eq hother).1,
    compare_append_left] at hlt

theorem mem_entriesBelow_iff {disk : Disk} {place names : Location} {entry : Entry} :
    (names, entry) ∈ disk.entriesBelow place ↔
      disk.entries[place ++ names]? = some entry := by
  rw [entriesBelow, List.mem_filterMap]
  constructor
  · rintro ⟨⟨found, other⟩, hmem, hfound⟩
    obtain ⟨rfl, rfl⟩ := eq_append_of_drop_eq hfound
    exact Std.TreeMap.mem_toList_iff_getElem?_eq_some.mp hmem
  · intro hentry
    refine ⟨_, Std.TreeMap.mem_toList_iff_getElem?_eq_some.mpr hentry, ?_⟩
    simp

theorem filesBelow_sorted (disk : Disk) (place : Location) :
    (disk.filesBelow place).Pairwise fun first second => compare first second = .lt :=
  List.pairwise_map.mpr ((disk.entriesBelow_sorted place).sublist List.filter_sublist)

theorem directoriesBelow_sorted (disk : Disk) (place : Location) :
    (disk.directoriesBelow place).Pairwise fun first second =>
      compare first second = .lt :=
  List.pairwise_map.mpr ((disk.entriesBelow_sorted place).sublist List.filter_sublist)

end Disk

namespace Corpus

theorem recordsBelow_sorted (disk : Disk) (place : Location) :
    (recordsBelow disk place).Pairwise
      fun first second => compare first second = .lt :=
  (disk.filesBelow_sorted place).sublist List.filter_sublist

/-- A corpus that is listed has a place on the disk, no directory in it is too far down
to be read, and its records are those at the place and below. -/
theorem graphFiles_eq_ok_iff {corpus : Corpus} {disk : Disk} {paths : List String} :
    corpus.graphFiles disk = .ok paths ↔
      ∃ place entry, disk.lookup corpus.root = .ok (place, entry) ∧
        (∀ names ∈ disk.directoriesBelow place, ¬ corpus.isTooDeep names) ∧
        paths = (recordsBelow disk place).map listedPath := by
  rw [graphFiles]
  cases disk.lookup corpus.root with
  | error cause => simp
  | ok found =>
      obtain ⟨place, entry⟩ := found
      cases hdeep : (disk.directoriesBelow place).find? corpus.isTooDeep with
      | some names =>
          have hnames := List.find?_some hdeep
          have hmem := List.mem_of_find?_eq_some hdeep
          simp only [hdeep, reduceCtorEq, false_iff]
          rintro ⟨_, _, hfound, hnone, _⟩
          cases hfound
          exact hnone names hmem hnames
      | none =>
          have hnone := List.find?_eq_none.mp hdeep
          simp only [hdeep, Except.ok.injEq, Prod.mk.injEq]
          constructor
          · rintro rfl
            exact ⟨place, entry, ⟨rfl, rfl⟩, hnone, rfl⟩
          · rintro ⟨_, _, ⟨rfl, rfl⟩, _, rfl⟩
            rfl

/-! ### Names on paths -/

/-- The names that a path shows. -/
def namesOf (path : String) : List String :=
  (pathParts path).filter (· ≠ "")

section

variable {names : Location}
  (hnames : ∀ name ∈ names, IsEntryName name.text ∧ '\\' ∉ name.text.toList)
include hnames

theorem listedPath_eq : listedPath names = "/".intercalate (names.map FileName.text) := by
  rw [listedPath, lossyText_intercalate, withSlashes, ← String.toList_inj,
    String.toList_ofList]
  apply (List.map_congr_left fun c hc => ?_).trans (List.map_id _)
  rw [if_neg]
  · rfl
  · rw [String.toList_intercalate] at hc
    rcases eq_or_mem_of_mem_intercalate hc with hslash | ⟨text, htext, hmem⟩
    · rw [hslash]
      decide
    · rw [List.map_map] at htext
      obtain ⟨name, hname, rfl⟩ := List.mem_map.mp htext
      rintro rfl
      exact (hnames name hname).2 hmem

theorem pathParts_listedPath (hne : names ≠ []) :
    pathParts (listedPath names) = names.map FileName.text := by
  have hslash : ∀ text ∈ (names.map FileName.text).map String.toList, '/' ∉ text := by
    rw [List.map_map]
    exact List.forall_mem_map.mpr fun name hname => (hnames name hname).1.no_slash
  rw [pathParts, listedPath_eq hnames, String.toList_intercalate]
  change (segments '/' (['/'].intercalate _)).map String.ofList = _
  rw [segments_intercalate (by simpa using hne) hslash, List.map_map]
  exact (List.map_congr_left fun _ _ => String.ofList_toList).trans (List.map_id _)

/-- What is shown of the names is read off the path. -/
theorem namesOf_listedPath : namesOf (listedPath names) = names.map FileName.text := by
  by_cases hne : names = []
  · subst hne
    rfl
  · rw [namesOf, pathParts_listedPath hnames hne, List.filter_eq_self]
    exact List.forall_mem_map.mpr fun name hname =>
      decide_eq_true (hnames name hname).1.ne_empty

end

end Corpus

end LogCorpus
