/-
Where modified records lie.

The record of an occurrence is written at the numbered path of its graph, as the
target corpus resolves it.  Numbering keeps the directories of a path and makes its
last part a name, so a relative path that does not lead above its start gives a place
below the target's root.  An absolute path is used as it is, and its record is written
beside the one that it names.
-/
import LogCorpus.Proofs.Corpus.Excision
import LogCorpus.Proofs.Occurrence.Siblings

namespace LogCorpus

namespace Corpus

/-- The destination of an occurrence is its graph's path with a number. -/
theorem exists_number_of_mem {counts : Std.TreeMap String Nat}
    {occurrences : List Occurrence} {occurrence : Occurrence} {destination : String}
    (hitem : (occurrence, destination) ∈
      occurrences.zip (numberPaths counts (occurrences.map Occurrence.graphPath))) :
    ∃ number, destination = numberedPath occurrence.graphPath number := by
  induction occurrences generalizing counts with
  | nil => exact absurd hitem List.not_mem_nil
  | cons head tail ih =>
      rw [List.map_cons, numberPaths, List.zip_cons_cons, List.mem_cons] at hitem
      rcases hitem with heq | htail
      · injection heq with hoccurrence hdestination
        subst hoccurrence
        exact ⟨_, hdestination⟩
      · exact ih htail

theorem resolve_of_isAbsolute (target : Corpus) {path : String}
    (hpath : isAbsolute path = true) : target.resolve path = path :=
  if_pos hpath

/-- The record of a relative path that stays inside lies below the target's root. -/
theorem isBelow_of_goal_resolve {target : Corpus} {disk : Disk} {path : String}
    {number : Nat} {place : Location} (hpath : isAbsolute path = false)
    (hinside : staysInside 0 (pathParts path))
    (hgoal : disk.goal (target.resolve (numberedPath path number)) = .ok place) :
    ∃ root, disk.baseOf target.root = .ok root ∧ place.IsBelow root := by
  obtain ⟨root, hroot, hfollow⟩ := Disk.exists_baseOf_of_goal_joinPath
    ((isAbsolute_numberedPath path number).trans hpath) hgoal
  obtain ⟨front, last, hparts, hnumbered⟩ := exists_pathParts_numberedPath path
  obtain ⟨name, hname, hnumberedParts⟩ := hnumbered number
  rw [hnumberedParts] at hfollow
  exact ⟨root, hroot, Disk.isBelow_of_foldlM_follow hname hfollow
    (staysInside_of_append (hparts ▸ hinside))⟩

/-- A file that is made or changed is the record of an occurrence that has a row. -/
theorem Excises.exists_occurrence_of_not_sameFile {source target : Corpus}
    {first : Nat} {disk after : Disk} {occurrences : List Occurrence}
    {written : List (Occurrence × Occurrence)} {failures : List ItemFailure}
    (hexcises : Excises source target first disk (withDestinations occurrences) written
      failures after) {place : Location} (hplace : ¬ disk.SameFile after place) :
    ∃ occurrence ∈ occurrences, ∃ number,
      occurrence.moveTo (numberedPath occurrence.graphPath number) ∈
          written.map Prod.snd ∧
        disk.goal (target.resolve (numberedPath occurrence.graphPath number)) =
          .ok place := by
  have hgrows := hexcises.growsOff
  have hwritten : place ∈ target.placesOf after written := by
    by_contra hoff
    exact hplace (hgrows.file_iff place hoff)
  obtain ⟨⟨occurrence, row⟩, hentry, hlocate⟩ := hwritten
  obtain ⟨destination, hitem, rfl⟩ := hexcises.exists_item hentry
  have hrow := List.mem_map_of_mem (f := Prod.snd) hentry
  have hgoal := Disk.goal_of_locate_eq_ok hgrows.working_eq hlocate
  obtain ⟨number, rfl⟩ := exists_number_of_mem hitem
  exact ⟨occurrence, fst_mem_of_withDestinations hitem, number, hrow, hgoal⟩

/-- Excising all occurrences writes files at the places of their records only.  Each
file that is made or changed is at the place that the target corpus gives to the
numbered path of an occurrence that has a row.  An absolute path is used as it is.  A
relative one that does not lead above its start gives a place below the target's root,
so if all paths are such, every file that is not below the root is as it was.  That
covers all files of a source whose root lies apart from the target's. -/
theorem files_of_exciseAll (source target : Corpus) (occurrences : List Occurrence)
    (disk : Disk) :
    ∃ rows report,
      (source.exciseAll target occurrences).run disk =
          (.ok (rows, report), source.excisedDisk target occurrences disk) ∧
        (∀ place,
          ¬ disk.SameFile (source.excisedDisk target occurrences disk) place →
          ∃ occurrence ∈ occurrences, ∃ number,
            let path := numberedPath occurrence.graphPath number
            occurrence.moveTo path ∈ rows ∧
              disk.goal (target.resolve path) = .ok place ∧
              (isAbsolute occurrence.graphPath → disk.goal path = .ok place) ∧
              (¬ isAbsolute occurrence.graphPath →
                staysInside 0 (pathParts occurrence.graphPath) →
                ∃ root, disk.baseOf target.root = .ok root ∧ place.IsBelow root)) ∧
        ((∀ occurrence ∈ occurrences, ¬ isAbsolute occurrence.graphPath ∧
            staysInside 0 (pathParts occurrence.graphPath)) →
          ∀ root, disk.baseOf target.root = .ok root →
            (∀ place, ¬ place.IsBelow root →
              disk.SameFile (source.excisedDisk target occurrences disk) place) ∧
            ∀ base, disk.baseOf source.root = .ok base →
              ¬ base <+: root → ¬ root <+: base → ∀ place, place.IsBelow base →
                disk.SameFile (source.excisedDisk target occurrences disk) place) := by
  obtain ⟨written, report, hrun, hexcises, _⟩ :=
    exists_run_exciseAll source target occurrences disk
  have hbelow : ∀ place,
      ¬ disk.SameFile (source.excisedDisk target occurrences disk) place →
      ∀ root, disk.baseOf target.root = .ok root →
      (∀ occurrence ∈ occurrences, ¬ isAbsolute occurrence.graphPath ∧
        staysInside 0 (pathParts occurrence.graphPath)) → place.IsBelow root := by
    intro place hplace root hroot hpaths
    obtain ⟨occurrence, hoccurrence, number, _, hgoal⟩ :=
      hexcises.exists_occurrence_of_not_sameFile hplace
    obtain ⟨hrelative, hinside⟩ := hpaths occurrence hoccurrence
    obtain ⟨other, hother, hplace⟩ :=
      isBelow_of_goal_resolve (Bool.eq_false_iff.mpr hrelative) hinside hgoal
    rw [hroot] at hother
    injection hother with hsame
    exact hsame ▸ hplace
  refine ⟨written.map Prod.snd, report, hrun, fun place hplace => ?_, ?_⟩
  · obtain ⟨occurrence, hoccurrence, number, hrow, hgoal⟩ :=
      hexcises.exists_occurrence_of_not_sameFile hplace
    refine ⟨occurrence, hoccurrence, number, hrow, hgoal, fun habsolute => ?_,
      fun hrelative hinside => ?_⟩
    · rw [resolve_of_isAbsolute target
        ((isAbsolute_numberedPath _ number).trans habsolute)] at hgoal
      exact hgoal
    · exact isBelow_of_goal_resolve (Bool.eq_false_iff.mpr hrelative) hinside hgoal
  · intro hpaths root hroot
    have hsame : ∀ place, ¬ place.IsBelow root →
        disk.SameFile (source.excisedDisk target occurrences disk) place := by
      intro place hplace
      exact Classical.byContradiction fun hchanged =>
        hplace (hbelow place hchanged root hroot hpaths)
    refine ⟨hsame, fun base _ hleft hright place hplace => ?_⟩
    exact hsame place (Location.not_isBelow_of_apart hleft hright hplace)

/-- An absolute path, and one that leads above the target's root: the record is written
over another record of the source, which is not below the root. -/
theorem files_written_outside :
    let word (id : UInt64) (contents : String) : Node :=
      ⟨id, .token, contents, 0, 0, 0, 0⟩
    let graph : Graph := ⟨"A.java", [word 1 "log", word 2 ";"], []⟩
    let other : Graph := ⟨"B.java", [word 7 "kept"], []⟩
    let entries : List (Location × Entry) := [(["source"], .directory),
      (["source", "A.proto"], .file (.bytes graph.toRecord)),
      (["source", "A1.proto"], .file (.bytes other.toRecord))]
    let disk : Disk := { entries := .ofList entries }
    let source : Corpus := ⟨"/source"⟩
    let target : Corpus := ⟨"/target"⟩
    let place : Location := ["source", "A1.proto"]
    disk.baseOf target.root = .ok ["target"] ∧ ¬ place.IsBelow ["target"] ∧
      ∀ graphPath ∈ ["/source/A.proto", "../source/A.proto"],
        ¬ disk.SameFile
          (source.excisedDisk target [⟨graphPath, .info, "m", some 1, none⟩] disk)
          place := by
  intro word graph other entries disk source target place
  refine ⟨by decide +kernel, by decide +kernel, fun graphPath hgraphPath hsame => ?_⟩
  let left : Graph := ⟨"A.java", [⟨1, .log, "", 0, 0, 0, 0⟩], []⟩
  have hwritten : ∀ graphPath ∈ ["/source/A.proto", "../source/A.proto"],
      (source.excisedDisk target [⟨graphPath, .info, "m", some 1, none⟩] disk).find?
        place = some (.file (.bytes left.toRecord)) := by
    decide +kernel
  have hbefore := (hsame _).mp (hwritten graphPath hgraphPath)
  exact absurd hbefore (by decide +kernel)

end Corpus

end LogCorpus
