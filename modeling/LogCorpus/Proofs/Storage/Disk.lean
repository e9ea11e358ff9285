/-
What a change of the disk leaves alone.

Two disks agree off some places if they have the same entries elsewhere and no
directory at those places.  Paths lead to the same locations on both, so whatever
is not read from those places is read alike.  Writing and removing files keeps
disks in agreement off the places of the files.
-/
import LogCorpus.Proofs.Stateful
import LogCorpus.Proofs.Storage.Path
import LogCorpus.Storage.Disk

namespace LogCorpus

namespace Disk

theorem find?_erase_of_ne (disk : Disk) {place other : Location}
    (hother : other ≠ place) :
    ({ disk with entries := disk.entries.erase place } : Disk).find? other =
      disk.find? other := by
  by_cases hroot : other = []
  · simp [find?, hroot]
  · simp [find?, hroot, Std.TreeMap.getElem?_erase, hother.symm]

theorem find?_erase_self (disk : Disk) {place : Location} (hplace : place ≠ []) :
    ({ disk with entries := disk.entries.erase place } : Disk).find? place = none := by
  simp [find?, hplace]

theorem ne_nil_of_find?_ne_directory {disk : Disk} {place : Location}
    (hplace : disk.find? place ≠ some .directory) : place ≠ [] := by
  intro hroot
  rw [hroot, find?, if_pos rfl] at hplace
  exact hplace rfl

theorem step_eq_ok_iff {disk : Disk} {place next : Location} {part : String} :
    disk.step place part = .ok next ↔
      disk.find? place = some .directory ∧ follow place part = .ok next := by
  rw [step]
  cases disk.find? place with
  | none => simp
  | some entry => cases entry <;> simp

section

variable {disk other : Disk}
  (hdirectories : ∀ place, disk.find? place = some .directory →
    other.find? place = some .directory)
include hdirectories

theorem step_of_directories {place next : Location} {part : String}
    (hstep : disk.step place part = .ok next) :
    other.step place part = .ok next := by
  obtain ⟨hdirectory, hfollow⟩ := step_eq_ok_iff.mp hstep
  exact step_eq_ok_iff.mpr ⟨hdirectories place hdirectory, hfollow⟩

/-- Directories alone decide where a path leads. -/
theorem locate_of_directories (hworking : other.working = disk.working)
    {path : String} {place : Location} (hlocate : disk.locate path = .ok place) :
    other.locate path = .ok place := by
  obtain ⟨start, hstart, hsteps⟩ := exists_of_bind_eq_ok hlocate
  have hother : other.start path = .ok start := by
    rw [Disk.start, hworking]
    exact hstart
  rw [locate, hother]
  exact foldlM_eq_ok_of_step (step_of_directories hdirectories) hsteps

end

/-- The disks differ at most at these places, which are no directories. -/
structure AgreesOff (places : List Location) (disk other : Disk) : Prop where
  working_eq : other.working = disk.working
  find?_eq : ∀ place, place ∉ places → other.find? place = disk.find? place
  left_ne_directory : ∀ place ∈ places, disk.find? place ≠ some .directory
  right_ne_directory : ∀ place ∈ places, other.find? place ≠ some .directory

namespace AgreesOff

theorem refl {places : List Location} {disk : Disk}
    (hplaces : ∀ place ∈ places, disk.find? place ≠ some .directory) :
    AgreesOff places disk disk :=
  ⟨rfl, fun _ _ => rfl, hplaces, hplaces⟩

section

variable {places : List Location} {disk other : Disk}
  (hagrees : AgreesOff places disk other)
include hagrees

theorem symm : AgreesOff places other disk where
  working_eq := hagrees.working_eq.symm
  find?_eq place hplace := (hagrees.find?_eq place hplace).symm
  left_ne_directory := hagrees.right_ne_directory
  right_ne_directory := hagrees.left_ne_directory

theorem trans {last : Disk} (hlast : AgreesOff places other last) :
    AgreesOff places disk last where
  working_eq := hlast.working_eq.trans hagrees.working_eq
  find?_eq place hplace :=
    (hlast.find?_eq place hplace).trans (hagrees.find?_eq place hplace)
  left_ne_directory := hagrees.left_ne_directory
  right_ne_directory := hlast.right_ne_directory

theorem mono {more : List Location} (hmore : ∀ place ∈ places, place ∈ more)
    (hdirectory : ∀ place ∈ more, disk.find? place ≠ some .directory) :
    AgreesOff more disk other where
  working_eq := hagrees.working_eq
  find?_eq place hplace :=
    hagrees.find?_eq place fun hmem => hplace (hmore place hmem)
  left_ne_directory := hdirectory
  right_ne_directory place hplace := by
    by_cases hmem : place ∈ places
    · exact hagrees.right_ne_directory place hmem
    · rw [hagrees.find?_eq place hmem]
      exact hdirectory place hplace

theorem find?_eq_directory {place : Location}
    (hplace : disk.find? place = some .directory) :
    other.find? place = some .directory := by
  rw [hagrees.find?_eq place fun hmem => hagrees.left_ne_directory place hmem hplace]
  exact hplace

/-- A path leads to the same location. -/
theorem locate_eq_ok {path : String} {place : Location}
    (hlocate : disk.locate path = .ok place) : other.locate path = .ok place :=
  locate_of_directories (fun _ => hagrees.find?_eq_directory) hagrees.working_eq
    hlocate

/-- A path that leads to none of the places leads to the same entry, or to
nothing on both disks. -/
theorem lookup_eq {path : String}
    (hapart : ∀ place ∈ places, disk.locate path ≠ .ok place) :
    other.lookup path = disk.lookup path ∨
      (∃ fault, disk.lookup path = .error fault) ∧
        ∃ fault, other.lookup path = .error fault := by
  cases hlocate : disk.locate path with
  | ok place =>
      left
      have hplace : place ∉ places := fun hmem => hapart place hmem hlocate
      rw [lookup, lookup, hlocate, hagrees.locate_eq_ok hlocate]
      simp only [bind, Except.bind, hagrees.find?_eq place hplace]
  | error fault =>
      right
      refine ⟨⟨fault, by rw [lookup, hlocate]; rfl⟩, ?_⟩
      cases hother : other.locate path with
      | ok place =>
          rw [hagrees.symm.locate_eq_ok hother] at hlocate
          cases hlocate
      | error cause => exact ⟨cause, by rw [lookup, hother]; rfl⟩

end

end AgreesOff

/-- A file can be written where the path leads. -/
def CanWrite (disk : Disk) (path : String) (place : Location) : Prop :=
  disk.locate path = .ok place ∧ disk.find? place ≠ some .directory

theorem write_eq_ok {disk : Disk} {path : String} {place : Location}
    (hwrite : disk.CanWrite path place) (bytes : List UInt8) :
    disk.write path bytes = .ok (disk.put place (.file (.bytes bytes))) := by
  rw [write, hwrite.1]
  simp only [bind, Except.bind]
  cases hfind : disk.find? place with
  | none => rfl
  | some entry =>
      cases entry with
      | directory => exact absurd hfind hwrite.2
      | file content => rfl

theorem canWrite_of_write_eq_ok {disk changed : Disk} {path : String}
    {bytes : List UInt8} (hwrite : disk.write path bytes = .ok changed) :
    ∃ place, disk.CanWrite path place ∧
      changed = disk.put place (.file (.bytes bytes)) := by
  obtain ⟨place, hlocate, hput⟩ := exists_of_bind_eq_ok hwrite
  have hdirectory : disk.find? place ≠ some .directory := by
    intro hfind
    rw [hfind] at hput
    cases hput
  have hplace : disk.CanWrite path place := ⟨hlocate, hdirectory⟩
  rw [write_eq_ok hplace] at hwrite
  injection hwrite with hchanged
  exact ⟨place, hplace, hchanged.symm⟩

theorem AgreesOff.canWrite {places : List Location} {disk other : Disk}
    (hagrees : AgreesOff places disk other) {path : String} {place : Location}
    (hwrite : disk.CanWrite path place) : other.CanWrite path place :=
  ⟨hagrees.locate_eq_ok hwrite.1, fun hfind =>
    hwrite.2 (hagrees.symm.find?_eq_directory hfind)⟩

section

variable {disk : Disk} {places : List Location} {place : Location}
  (hplaces : ∀ place ∈ places, disk.find? place ≠ some .directory)
  (hplace : place ∈ places)
include hplaces hplace

theorem agreesOff_of_find?_eq {changed : Disk}
    (hworking : changed.working = disk.working)
    (hoff : ∀ other, other ≠ place → changed.find? other = disk.find? other)
    (hat : changed.find? place ≠ some .directory) :
    AgreesOff places disk changed where
  working_eq := hworking
  find?_eq other hother := hoff other fun heq => hother (heq ▸ hplace)
  left_ne_directory := hplaces
  right_ne_directory other hother := by
    by_cases heq : other = place
    · rw [heq]
      exact hat
    · rw [hoff other heq]
      exact hplaces other hother

/-- Writing a file changes the disk at its place only. -/
theorem agreesOff_put (content : Content) :
    AgreesOff places disk (disk.put place (.file content)) := by
  refine agreesOff_of_find?_eq hplaces hplace rfl ?_ ?_
  · intro other hother
    exact find?_put_of_ne disk _ hother
  · rw [find?_put_self disk _ (ne_nil_of_find?_ne_directory (hplaces place hplace))]
    simp

/-- Removing a file changes the disk at its place only. -/
theorem agreesOff_erase :
    AgreesOff places disk { disk with entries := disk.entries.erase place } := by
  refine agreesOff_of_find?_eq hplaces hplace rfl ?_ ?_
  · intro other hother
    exact find?_erase_of_ne disk hother
  · rw [find?_erase_self disk (ne_nil_of_find?_ne_directory (hplaces place hplace))]
    simp

end

theorem lookup_eq_ok {disk : Disk} {path : String} {place : Location}
    {entry : Entry} (hlocate : disk.locate path = .ok place)
    (hfind : disk.find? place = some entry) :
    disk.lookup path = .ok (place, entry) := by
  rw [lookup, hlocate]
  simp only [bind, Except.bind, hfind]
  rfl

theorem locate_of_lookup_eq_ok {disk : Disk} {path : String}
    {found : Location × Entry} (hlookup : disk.lookup path = .ok found) :
    disk.locate path = .ok found.1 ∧ disk.find? found.1 = some found.2 := by
  obtain ⟨place, hlocate, hfound⟩ := exists_of_bind_eq_ok hlookup
  cases hfind : disk.find? place with
  | none =>
      rw [hfind] at hfound
      cases hfound
  | some entry =>
      rw [hfind] at hfound
      injection hfound with hfound
      subst hfound
      exact ⟨hlocate, hfind⟩

theorem read_eq_ok {disk : Disk} {path : String} {place : Location}
    {content : Content} (hlocate : disk.locate path = .ok place)
    (hfind : disk.find? place = some (.file content)) :
    disk.read path = .ok content.toBytes := by
  rw [read, lookup_eq_ok hlocate hfind]
  rfl

theorem remove_eq_ok {disk : Disk} {path : String} {place : Location}
    {content : Content} (hlocate : disk.locate path = .ok place)
    (hfind : disk.find? place = some (.file content)) :
    disk.remove path = .ok { disk with entries := disk.entries.erase place } := by
  rw [remove, lookup_eq_ok hlocate hfind]
  rfl

theorem eq_of_start_eq_ok {disk : Disk} {path : String} {found : Location × List String}
    (hstart : disk.start path = .ok found) :
    found = (if isAbsolute path then [] else disk.working, pathParts path) := by
  rw [start] at hstart
  split at hstart
  · cases hstart
  split at hstart
  · cases hstart
  split at hstart
  · cases hstart
  · injection hstart with hfound
    exact hfound.symm

/-- A name leads one step down. -/
theorem follow_of_isEntryName {place next : Location} {name : String}
    (hname : IsEntryName name) (hfollow : follow place name = .ok next) :
    next = place ++ [FileName.ofText name] := by
  rw [follow, if_neg (by simp [hname.ne_empty, hname.ne_dot]), if_neg hname.ne_dots]
    at hfollow
  split at hfollow
  · cases hfollow
  · injection hfollow with hnext
    exact hnext.symm

/-- A path that ends in a name leads to an entry of that name. -/
theorem getLast?_of_locate_joinPath {disk : Disk} {base name : String}
    (hname : IsEntryName name) {place : Location}
    (hlocate : disk.locate (joinPath base name) = .ok place) :
    place.getLast? = some (FileName.ofText name) := by
  obtain ⟨⟨first, parts⟩, hstart, hsteps⟩ := exists_of_bind_eq_ok hlocate
  have hparts : parts = pathParts (joinPath base name) :=
    congrArg Prod.snd (eq_of_start_eq_ok hstart)
  obtain ⟨front, hfront⟩ := pathParts_joinPath hname base
  rw [hparts, hfront] at hsteps
  change (front ++ [name]).foldlM disk.step first = .ok place at hsteps
  obtain ⟨parent, _, hstep⟩ := foldlM_concat_eq_ok_iff.mp hsteps
  rw [follow_of_isEntryName hname (step_eq_ok_iff.mp hstep).2, List.getLast?_concat]

end Disk

end LogCorpus
