/-
How a disk grows.

A disk grows off some places if it keeps its directories, gets no file and loses none
except at those places.  Making directories is growth off no place, writing a file is
growth off its place, and growth adds up.  Paths lead to the same locations on a disk
that has grown, and files that lie at none of the places are read alike.
-/
import LogCorpus.Proofs.Storage.Disk
import LogCorpus.Storage.OnDisk
import Mathlib.Data.Set.Basic

namespace LogCorpus

namespace Disk

/-- The other disk has all directories of the disk, and the same files but for those
at the places. -/
structure GrowsOff (places : Set Location) (disk other : Disk) : Prop where
  working_eq : other.working = disk.working
  keeps_directory : ∀ place, disk.find? place = some .directory →
    other.find? place = some .directory
  file_iff : ∀ place, place ∉ places → ∀ content,
    other.find? place = some (.file content) ↔ disk.find? place = some (.file content)

namespace GrowsOff

theorem refl (places : Set Location) (disk : Disk) : GrowsOff places disk disk :=
  ⟨rfl, fun _ hfind => hfind, fun _ _ _ => Iff.rfl⟩

section

variable {places : Set Location} {disk other : Disk} (hgrows : GrowsOff places disk other)
include hgrows

theorem trans {last : Disk} (hlast : GrowsOff places other last) :
    GrowsOff places disk last where
  working_eq := hlast.working_eq.trans hgrows.working_eq
  keeps_directory place hfind :=
    hlast.keeps_directory place (hgrows.keeps_directory place hfind)
  file_iff place hplace content :=
    (hlast.file_iff place hplace content).trans (hgrows.file_iff place hplace content)

theorem mono {more : Set Location} (hmore : places ⊆ more) : GrowsOff more disk other where
  working_eq := hgrows.working_eq
  keeps_directory := hgrows.keeps_directory
  file_iff place hplace := hgrows.file_iff place fun hmem => hplace (hmore hmem)

/-- A path leads to the same location. -/
theorem locate_eq_ok {path : String} {place : Location}
    (hlocate : disk.locate path = .ok place) : other.locate path = .ok place :=
  locate_of_directories hgrows.keeps_directory hgrows.working_eq hlocate

/-- A path that leads to a file at none of the places leads to that file. -/
theorem lookup_eq_ok {path : String} {place : Location} {content : Content}
    (hlookup : disk.lookup path = .ok (place, .file content)) (hplace : place ∉ places) :
    other.lookup path = .ok (place, .file content) := by
  obtain ⟨hlocate, hfind⟩ := locate_of_lookup_eq_ok hlookup
  exact Disk.lookup_eq_ok (hgrows.locate_eq_ok hlocate)
    ((hgrows.file_iff place hplace content).mpr hfind)

end

end GrowsOff

/-- The location that a path leads to when all directories on the way exist. -/
def goal (disk : Disk) (path : String) : Except DiskFault Location := do
  let (place, parts) ← disk.start path
  parts.foldlM follow place

/-- Of a disk only the working directory counts for the goal of a path. -/
theorem goal_congr {disk other : Disk} (hworking : other.working = disk.working)
    (path : String) : other.goal path = disk.goal path := by
  rw [goal, goal, start, start, hworking]

/-- A path that leads somewhere leads to its goal, which a disk that grows does not
change. -/
theorem goal_of_locate_eq_ok {disk other : Disk} (hworking : other.working = disk.working)
    {path : String} {place : Location} (hlocate : other.locate path = .ok place) :
    disk.goal path = .ok place := by
  obtain ⟨found, hstart, hsteps⟩ := exists_of_bind_eq_ok hlocate
  rw [← goal_congr hworking, goal, hstart]
  exact foldlM_eq_ok_of_step (fun hstep => (step_eq_ok_iff.mp hstep).2) hsteps

/-- Two paths lead to one place. -/
def Meet (first second : Except DiskFault Location) : Prop :=
  ∃ place, first = .ok place ∧ second = .ok place

instance (first second : Except DiskFault Location) : Decidable (Meet first second) :=
  match first with
  | .ok place =>
      decidable_of_iff (second = .ok place)
        ⟨fun hsecond => ⟨place, rfl, hsecond⟩, fun ⟨_, hfirst, hsecond⟩ =>
          hsecond.trans hfirst.symm⟩
  | .error _ => .isFalse fun ⟨_, hfirst, _⟩ => nomatch hfirst

theorem Meet.goals {disk other : Disk} (hworking : other.working = disk.working)
    {first second : String} (hmeet : Meet (other.locate first) (other.locate second)) :
    Meet (disk.goal first) (disk.goal second) := by
  obtain ⟨place, hfirst, hsecond⟩ := hmeet
  exact ⟨place, goal_of_locate_eq_ok hworking hfirst,
    goal_of_locate_eq_ok hworking hsecond⟩

theorem growsOff_putDirectory {disk : Disk} {place : Location}
    (hplace : disk.find? place = none) : GrowsOff ∅ disk (disk.put place .directory) := by
  have hroot : place ≠ [] := by
    rintro rfl
    cases hplace
  have hoff {other : Location} (hother : other ≠ place) :
      (disk.put place .directory).find? other = disk.find? other :=
    find?_put_of_ne disk .directory hother
  refine ⟨rfl, fun other hfind => ?_, fun other _ content => ?_⟩
  · rw [hoff, hfind]
    rintro rfl
    rw [hplace] at hfind
    cases hfind
  · by_cases hother : other = place
    · rw [hother, hplace, find?_put_self disk .directory hroot]
      simp
    · rw [hoff hother]

theorem growsOff_putFile {disk : Disk} {place : Location}
    (hplace : disk.find? place ≠ some .directory) (content : Content) :
    GrowsOff {place} disk (disk.put place (.file content)) := by
  have hoff {other : Location} (hother : other ≠ place) :
      (disk.put place (.file content)).find? other = disk.find? other :=
    find?_put_of_ne disk (.file content) hother
  refine ⟨rfl, fun other hfind => ?_, fun other hother found => ?_⟩
  · rw [hoff, hfind]
    rintro rfl
    exact hplace hfind
  · rw [hoff hother]

/-- Making the directories of a path keeps all files, whether it fails or not. -/
theorem growsOff_makeAlong (disk : Disk) (place : Location) (parts : List String) :
    GrowsOff ∅ disk (disk.makeAlong place parts).2 := by
  induction parts generalizing disk place with
  | nil => exact GrowsOff.refl ∅ disk
  | cons part rest ih =>
      rw [makeAlong]
      split
      · exact GrowsOff.refl ∅ disk
      split
      · exact ih disk _
      · exact GrowsOff.refl ∅ disk
      · next hnext =>
          split
          · exact GrowsOff.refl ∅ disk
          · exact (growsOff_putDirectory hnext).trans (ih _ _)

theorem growsOff_makeDirectories (disk : Disk) (path : String) :
    GrowsOff ∅ disk (disk.makeDirectories path).2 := by
  rw [makeDirectories]
  split
  · exact GrowsOff.refl ∅ disk
  split
  · exact GrowsOff.refl ∅ disk
  · exact growsOff_makeAlong disk _ _

/-- The other disk has every entry of the disk. -/
structure Extends (disk other : Disk) : Prop where
  working_eq : other.working = disk.working
  find?_eq_some : ∀ place entry, disk.find? place = some entry →
    other.find? place = some entry

theorem GrowsOff.extends {disk other : Disk} (hgrows : GrowsOff ∅ disk other) :
    Extends disk other where
  working_eq := hgrows.working_eq
  find?_eq_some place entry hfind := by
    cases entry with
    | directory => exact hgrows.keeps_directory place hfind
    | file content => exact (hgrows.file_iff place (Set.notMem_empty place) content).mpr hfind

/-- What a path leads to stays there. -/
theorem Extends.lookup_eq_ok {disk other : Disk} (hextends : Extends disk other)
    {path : String} {found : Location × Entry}
    (hlookup : disk.lookup path = .ok found) : other.lookup path = .ok found := by
  obtain ⟨hlocate, hfind⟩ := locate_of_lookup_eq_ok hlookup
  exact Disk.lookup_eq_ok
    (locate_of_directories (fun place => hextends.find?_eq_some place .directory)
      hextends.working_eq hlocate)
    (hextends.find?_eq_some _ _ hfind)

theorem extends_makeDirectories (disk : Disk) (path : String) :
    Extends disk (disk.makeDirectories path).2 :=
  (disk.growsOff_makeDirectories path).extends

end Disk

namespace OnDisk

theorem run_look_of_eq {α : Type} {query : Disk → Except Fault α} {disk : Disk}
    {outcome : Except Fault α} (hquery : query disk = outcome) :
    (look query).run disk = (outcome, disk) := by
  rw [run_look, hquery]

theorem run_change_of_ok {action : String}
    {operation : Disk → Except DiskFault Disk} {disk changed : Disk}
    (hoperation : operation disk = .ok changed) :
    (change action operation).run disk = (.ok (), changed) := by
  simp only [change, ExceptT.run, ExceptT.mk, hoperation]

theorem run_change_of_error {action : String}
    {operation : Disk → Except DiskFault Disk} {disk : Disk} {cause : DiskFault}
    (hoperation : operation disk = .error cause) :
    (change action operation).run disk = (.error (cause.toFault action), disk) := by
  simp only [change, ExceptT.run, ExceptT.mk, hoperation]

theorem eq_ok_of_run_change {action : String}
    {operation : Disk → Except DiskFault Disk} {disk changed : Disk} {done : Unit}
    (hrun : (change action operation).run disk = (.ok done, changed)) :
    operation disk = .ok changed := by
  cases hoperation : operation disk with
  | error cause =>
      rw [run_change_of_error hoperation] at hrun
      injection hrun with houtcome
      cases houtcome
  | ok other =>
      rw [run_change_of_ok hoperation] at hrun
      injection hrun with _ hother
      rw [hother]

/-- Writing a file fails or writes it where the path leads. -/
theorem run_change_write (action path : String) (bytes : List UInt8) (disk : Disk) :
    (∃ fault, (change action (·.write path bytes)).run disk = (.error fault, disk)) ∨
      ∃ place, disk.CanWrite path place ∧
        (change action (·.write path bytes)).run disk =
          (.ok (), disk.put place (.file (.bytes bytes))) := by
  cases hwrite : disk.write path bytes with
  | error cause => exact .inl ⟨_, run_change_of_error hwrite⟩
  | ok changed =>
      obtain ⟨place, hplace, rfl⟩ := Disk.canWrite_of_write_eq_ok hwrite
      exact .inr ⟨place, hplace, run_change_of_ok hwrite⟩

/-- Making directories fails or not; the disk has grown by what was made. -/
theorem exists_run_makeDirectories (path : String) (disk : Disk) :
    ∃ ready : Disk, Disk.GrowsOff ∅ disk ready ∧
      ((∃ fault, (makeDirectories path).run disk = (.error fault, ready)) ∨
        (makeDirectories path).run disk = (.ok (), ready)) := by
  refine ⟨(disk.makeDirectories path).2, disk.growsOff_makeDirectories path, ?_⟩
  change (∃ fault, ((disk.makeDirectories path).1.mapError _, _) = (.error fault, _)) ∨
    ((disk.makeDirectories path).1.mapError _, _) = (.ok (), _)
  cases (disk.makeDirectories path).1 with
  | error cause => exact .inl ⟨_, rfl⟩
  | ok made => exact .inr rfl

end OnDisk

end LogCorpus
