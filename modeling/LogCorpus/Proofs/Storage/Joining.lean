/-
What joined paths lead to.

A path leads on from directories only.  So it leads to a file only if its last part is
a name, and a path that is joined to a base leads somewhere only if the base leads to a
directory.
-/
import LogCorpus.Proofs.Storage.Confinement

namespace LogCorpus

/-- Is the last part of a path a name?  It must lead neither nowhere nor up. -/
def endsInName (path : String) : Bool :=
  (pathParts path).getLast?.any fun part => part ≠ "" ∧ part ≠ "." ∧ part ≠ ".."

theorem pathParts_ne_nil (path : String) : pathParts path ≠ [] :=
  fun hnil => segments_ne_nil '/' path.toList (List.map_eq_nil_iff.mp hnil)

theorem exists_pathParts_eq_concat (path : String) :
    ∃ front last, pathParts path = front ++ [last] := by
  obtain ⟨front, last, hparts⟩ :=
    (List.eq_nil_or_concat (pathParts path)).resolve_left (pathParts_ne_nil path)
  exact ⟨front, last, by rw [hparts, List.concat_eq_append]⟩

theorem endsInName_eq {path last : String} {front : List String}
    (hparts : pathParts path = front ++ [last]) :
    endsInName path = decide (last ≠ "" ∧ last ≠ "." ∧ last ≠ "..") := by
  rw [endsInName, hparts, List.getLast?_concat, Option.any_some]

/-- A joined path ends like the path that is joined. -/
theorem endsInName_joinPath (base path : String) :
    endsInName (joinPath base path) = endsInName path := by
  by_cases hpath : isAbsolute path
  · rw [joinPath, if_pos hpath]
  rw [Bool.not_eq_true] at hpath
  by_cases hbase : base.isEmpty
  · rw [joinPath, if_neg (Bool.eq_false_iff.mp hpath), String.isEmpty_iff.mp hbase]
    simp
  · obtain ⟨before, hjoined, _⟩ := exists_pathParts_joinPath hpath hbase
    obtain ⟨front, last, hparts⟩ := exists_pathParts_eq_concat path
    rw [hparts, ← List.append_assoc] at hjoined
    rw [endsInName_eq hjoined, endsInName_eq hparts]

namespace Disk

/-- All places above a place are directories. -/
def Anchored (disk : Disk) (place : Location) : Prop :=
  ∀ above, above <+: place → above ≠ place → disk.find? above = some .directory

theorem anchored_nil (disk : Disk) : disk.Anchored [] :=
  fun _ habove hne => absurd (List.prefix_nil.mp habove) hne

theorem Anchored.find?_dropLast {disk : Disk} {place : Location}
    (hplace : disk.Anchored place) : disk.find? place.dropLast = some .directory := by
  by_cases hroot : place = []
  · rw [hroot]
    rfl
  · apply hplace _ (List.dropLast_prefix place)
    intro hsame
    have hlength := congrArg List.length hsame
    have hpos := List.length_pos_iff.mpr hroot
    rw [List.length_dropLast] at hlength
    omega

/-- A step that goes down leaves a directory, and one that goes up is to a place with
fewer places above. -/
theorem Anchored.step {disk : Disk} {place next : Location} {part : String}
    (hplace : disk.Anchored place) (hstep : disk.step place part = .ok next) :
    disk.Anchored next := by
  obtain ⟨hdirectory, hfollow⟩ := step_eq_ok_iff.mp hstep
  rw [follow] at hfollow
  split at hfollow
  · injection hfollow with hnext
    exact hnext ▸ hplace
  split at hfollow
  · injection hfollow with hnext
    subst hnext
    intro above habove hne
    apply hplace above (habove.trans (List.dropLast_prefix place))
    rintro rfl
    exact hne (habove.eq_of_length_le (by simp))
  split at hfollow
  · cases hfollow
  · injection hfollow with hnext
    subst hnext
    intro above habove hne
    have hprefix := (List.prefix_concat_iff.mp habove).resolve_left hne
    by_cases hsame : above = place
    · rw [hsame, hdirectory]
    · exact hplace above hprefix hsame

theorem Anchored.foldlM_step {disk : Disk} {parts : List String} {place last : Location}
    (hplace : disk.Anchored place) (hsteps : parts.foldlM disk.step place = .ok last) :
    disk.Anchored last := by
  induction parts generalizing place with
  | nil =>
      injection hsteps with hlast
      exact hlast ▸ hplace
  | cons part rest ih =>
      rw [List.foldlM_cons] at hsteps
      obtain ⟨next, hnext, hrest⟩ := exists_of_bind_eq_ok hsteps
      exact ih (hplace.step hnext) hrest

/-- Where everything above the working directory is a directory, a path leads to a file
only if it ends in a name: idle parts and those that lead up lead to directories. -/
theorem endsInName_of_lookup_eq_file {disk : Disk} (hworking : disk.Anchored disk.working)
    {path : String} {place : Location} {content : Content}
    (hlookup : disk.lookup path = .ok (place, .file content)) : endsInName path := by
  obtain ⟨hlocate, hfile⟩ := locate_of_lookup_eq_ok hlookup
  obtain ⟨⟨first, parts⟩, hstart, hsteps⟩ := exists_of_bind_eq_ok hlocate
  obtain ⟨hfirst, hparts⟩ := Prod.mk.inj (eq_of_start_eq_ok hstart)
  obtain ⟨front, last, hlast⟩ := exists_pathParts_eq_concat path
  change parts.foldlM disk.step first = .ok place at hsteps
  rw [hparts, hlast, foldlM_concat_eq_ok_iff] at hsteps
  obtain ⟨middle, hfront, hstep⟩ := hsteps
  have hmiddle : disk.Anchored middle := by
    apply Anchored.foldlM_step _ hfront
    rw [hfirst]
    split
    · exact disk.anchored_nil
    · exact hworking
  obtain ⟨hdirectory, hfollow⟩ := step_eq_ok_iff.mp hstep
  have hnot : disk.find? place ≠ some .directory := by
    rw [hfile]
    simp
  rw [endsInName_eq hlast, decide_eq_true_iff]
  rw [follow] at hfollow
  by_cases hidle : last = "" ∨ last = "."
  · rw [if_pos hidle] at hfollow
    injection hfollow with hplace
    exact absurd (hplace ▸ hdirectory) hnot
  by_cases hup : last = ".."
  · rw [if_neg hidle, if_pos hup] at hfollow
    injection hfollow with hplace
    exact absurd (hplace ▸ hmiddle.find?_dropLast) hnot
  · rw [not_or] at hidle
    exact ⟨hidle.1, hidle.2, hup⟩

/-! ### Directories that paths are joined to -/

theorem isDirectory_iff {disk : Disk} {path : String} :
    disk.isDirectory path ↔ ∃ place, disk.lookup path = .ok (place, .directory) := by
  rw [isDirectory]
  constructor
  · intro hdirectory
    split at hdirectory
    · next place hlookup => exact ⟨place, hlookup⟩
    · cases hdirectory
  · rintro ⟨place, hlookup⟩
    rw [hlookup]

theorem GrowsOff.isDirectory {places : Set Location} {disk other : Disk}
    (hgrows : GrowsOff places disk other) {path : String}
    (hdirectory : disk.isDirectory path) : other.isDirectory path := by
  obtain ⟨place, hlookup⟩ := isDirectory_iff.mp hdirectory
  obtain ⟨hlocate, hfind⟩ := locate_of_lookup_eq_ok hlookup
  exact isDirectory_iff.mpr
    ⟨place, Disk.lookup_eq_ok (hgrows.locate_eq_ok hlocate)
      (hgrows.keeps_directory place hfind)⟩

section

variable {disk : Disk} {base path : String} (hbase : ¬ base.isEmpty)
  (hpath : isAbsolute path = false)
include hbase hpath

/-- A relative path goes on from the directory that its base leads to. -/
theorem exists_directory_of_locate_joinPath {place : Location}
    (hlocate : disk.locate (joinPath base path) = .ok place) :
    ∃ root, disk.lookup base = .ok (root, .directory) ∧
      (pathParts path).foldlM disk.step root = .ok place := by
  obtain ⟨⟨first, parts⟩, hstart, hsteps⟩ := exists_of_bind_eq_ok hlocate
  change parts.foldlM disk.step first = .ok place at hsteps
  have hparts := congrArg Prod.snd (eq_of_start_eq_ok hstart)
  obtain ⟨ending, hending⟩ : ∃ ending, joinPath base path = base ++ ending :=
    exists_joinPath_eq_append hpath
  obtain ⟨front, hjoined, hfront⟩ := exists_pathParts_joinPath hpath hbase
  change parts = _ at hparts
  rw [hparts, hjoined, List.foldlM_append] at hsteps
  obtain ⟨root, hroot, hrest⟩ := exists_of_bind_eq_ok hsteps
  -- the first part of the path is followed from a directory
  have hdirectory : disk.find? root = some .directory := by
    cases hpieces : pathParts path with
    | nil => exact absurd hpieces (pathParts_ne_nil path)
    | cons part rest =>
        rw [hpieces, List.foldlM_cons] at hrest
        obtain ⟨_, hstep, _⟩ := exists_of_bind_eq_ok hrest
        exact (step_eq_ok_iff.mp hstep).1
  refine ⟨root, lookup_eq_ok ?_ hdirectory, hrest⟩
  rw [hending] at hstart
  rw [locate, start_eq_ok_of_append hbase hstart]
  change (pathParts base).foldlM disk.step first = .ok root
  rcases hfront with hsame | hslash
  · rw [hsame, hroot]
  · rw [hslash, foldlM_concat_eq_ok_iff]
    exact ⟨root, hroot, step_eq_ok_iff.mpr ⟨hdirectory, rfl⟩⟩

/-- From a directory that its base leads to, a relative path can be followed. -/
theorem locate_joinPath_of_directory {found : Location × List String} {root : Location}
    (hstart : disk.start (joinPath base path) = .ok found)
    (hroot : disk.lookup base = .ok (root, .directory)) :
    disk.locate (joinPath base path) = (pathParts path).foldlM disk.step root := by
  obtain ⟨first, parts⟩ := found
  have hparts : parts = pathParts (joinPath base path) :=
    congrArg Prod.snd (eq_of_start_eq_ok hstart)
  obtain ⟨ending, hending⟩ : ∃ ending, joinPath base path = base ++ ending :=
    exists_joinPath_eq_append hpath
  obtain ⟨front, hjoined, hfront⟩ := exists_pathParts_joinPath hpath hbase
  have hsteps := (locate_of_lookup_eq_ok hroot).1
  rw [locate, start_eq_ok_of_append hbase (hending ▸ hstart)] at hsteps
  change (pathParts base).foldlM disk.step first = .ok root at hsteps
  have hlast : front.foldlM disk.step first = .ok root := by
    rcases hfront with hsame | hslash
    · rw [← hsame, hsteps]
    · rw [hslash, foldlM_concat_eq_ok_iff] at hsteps
      obtain ⟨middle, hmiddle, hstep⟩ := hsteps
      have hsame : middle = root := Except.ok.inj (step_eq_ok_iff.mp hstep).2
      rw [hmiddle, hsame]
  rw [locate, hstart]
  change parts.foldlM disk.step first = _
  rw [hparts, hjoined, List.foldlM_append, hlast]
  rfl

end

/-- An entry of the directory of a base can be located if and only if there is such a
directory. -/
theorem locate_joinPath_eq_ok_iff {disk : Disk} {base name : String} {place : Location}
    (hbase : ¬ base.isEmpty) (hname : IsEntryName name)
    (hgoal : disk.goal (joinPath base name) = .ok place) :
    disk.locate (joinPath base name) = .ok place ↔ disk.isDirectory base := by
  have hpath := hname.not_isAbsolute
  have hparts : pathParts name = [name] := by
    rw [pathParts, segments_of_not_mem hname.no_slash]
    simp
  constructor
  · intro hlocate
    obtain ⟨root, hroot, _⟩ := exists_directory_of_locate_joinPath hbase hpath hlocate
    exact isDirectory_iff.mpr ⟨root, hroot⟩
  · intro hdirectory
    obtain ⟨root, hroot⟩ := isDirectory_iff.mp hdirectory
    obtain ⟨hlocate, hfind⟩ := locate_of_lookup_eq_ok hroot
    obtain ⟨found, hstart, _⟩ := exists_of_bind_eq_ok hgoal
    obtain ⟨start, hstartRoot, hfollow⟩ := exists_baseOf_of_goal_joinPath hpath hgoal
    have hsame : start = root := by
      rw [baseOf, if_neg hbase, goal_of_locate_eq_ok rfl hlocate] at hstartRoot
      exact (Except.ok.inj hstartRoot).symm
    rw [locate_joinPath_of_directory hbase hpath hstart hroot]
    rw [hparts, hsame, List.foldlM_cons] at hfollow
    obtain ⟨next, hnext, hdone⟩ := exists_of_bind_eq_ok hfollow
    injection hdone with hdone
    rw [hparts, ← List.nil_append [name], foldlM_concat_eq_ok_iff]
    exact ⟨root, rfl, step_eq_ok_iff.mpr ⟨hfind, hdone ▸ hnext⟩⟩

/-- A file can be written under a name in the directory of a base if there is such a
directory and the name is not that of a directory in it. -/
theorem exists_canWrite_joinPath_iff {disk : Disk} {base name : String} {place : Location}
    (hbase : ¬ base.isEmpty) (hname : IsEntryName name)
    (hgoal : disk.goal (joinPath base name) = .ok place) :
    (∃ place, disk.CanWrite (joinPath base name) place) ↔
      disk.isDirectory base ∧ ¬ disk.isDirectory (joinPath base name) := by
  rw [← locate_joinPath_eq_ok_iff hbase hname hgoal]
  constructor
  · rintro ⟨found, hlocate, hfind⟩
    have hsame : place = found :=
      Except.ok.inj (hgoal.symm.trans (goal_of_locate_eq_ok rfl hlocate))
    refine ⟨hsame ▸ hlocate, ?_⟩
    rw [isDirectory_iff, not_exists]
    intro other hlookup
    obtain ⟨hother, hdirectory⟩ := locate_of_lookup_eq_ok hlookup
    rw [hlocate] at hother
    exact hfind (Except.ok.inj hother ▸ hdirectory)
  · rintro ⟨hlocate, hnot⟩
    rw [isDirectory_iff, not_exists] at hnot
    exact ⟨place, hlocate, fun hfind => hnot place (lookup_eq_ok hlocate hfind)⟩

end Disk

end LogCorpus
