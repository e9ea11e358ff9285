/-
The places that a path visits.

What becomes of a path on a disk depends on the places on its way alone.  Two disks that
are alike at these places answer alike, and directories are made alike on two disks of
which one has some of them already.  So what is done at other places does not matter.
-/
import LogCorpus.Proofs.Storage.Growth

namespace LogCorpus

namespace Disk

/-- The place at which a path starts. -/
def first (disk : Disk) (path : String) : Location :=
  if isAbsolute path then [] else disk.working

theorem find?_first {disk : Disk} (hworking : disk.find? disk.working = some .directory)
    (path : String) : disk.find? (disk.first path) = some .directory := by
  rw [first]
  split
  · rfl
  · exact hworking

/-- The places on the way that parts take from a place, this one and the last among
them. -/
def visitsFrom (place : Location) : List String → List Location
  | [] => [place]
  | part :: rest =>
      place :: match follow place part with
        | .ok next => visitsFrom next rest
        | .error _ => []

/-- The places on the way that a path takes. -/
def visits (disk : Disk) (path : String) : List Location :=
  visitsFrom (disk.first path) (pathParts path)

theorem visitsFrom_cons_of_ok {place next : Location} {part : String} {rest : List String}
    (hnext : follow place part = .ok next) :
    visitsFrom place (part :: rest) = place :: visitsFrom next rest := by
  rw [visitsFrom, hnext]

theorem self_mem_visitsFrom (place : Location) (parts : List String) :
    place ∈ visitsFrom place parts := by
  cases parts with
  | nil => exact List.mem_singleton_self place
  | cons part rest => exact List.mem_cons_self

/-- Parts visit the place that they lead to. -/
theorem mem_visitsFrom_of_foldlM {parts : List String} {place last : Location}
    (hfollow : parts.foldlM follow place = .ok last) : last ∈ visitsFrom place parts := by
  induction parts generalizing place with
  | nil =>
      injection hfollow with hlast
      exact hlast ▸ self_mem_visitsFrom place []
  | cons part rest ih =>
      rw [List.foldlM_cons] at hfollow
      obtain ⟨next, hnext, hrest⟩ := exists_of_bind_eq_ok hfollow
      rw [visitsFrom_cons_of_ok hnext]
      exact List.mem_cons_of_mem place (ih hrest)

/-- The places on the way to the last part of a path. -/
def visitsBefore (disk : Disk) (path : String) : List Location :=
  visitsFrom (disk.first path) (pathParts path).dropLast

theorem visitsFrom_subset_append (place : Location) (front back : List String) :
    visitsFrom place front ⊆ visitsFrom place (front ++ back) := by
  induction front generalizing place with
  | nil => simp [visitsFrom, self_mem_visitsFrom]
  | cons part rest ih =>
      rw [List.cons_append, visitsFrom, visitsFrom]
      cases follow place part with
      | error fault => exact List.Subset.refl _
      | ok next => exact List.cons_subset_cons place (ih next)

theorem visitsBefore_subset (disk : Disk) (path : String) :
    disk.visitsBefore path ⊆ disk.visits path := by
  have hsubset := visitsFrom_subset_append (disk.first path) (pathParts path).dropLast
    ((pathParts path).drop ((pathParts path).length - 1))
  rwa [List.dropLast_eq_take, List.take_append_drop, ← List.dropLast_eq_take] at hsubset

/-- Of a disk only the working directory counts for the places that a path visits. -/
theorem visits_congr {disk other : Disk} (hworking : other.working = disk.working)
    (path : String) : other.visits path = disk.visits path := by
  rw [visits, visits, first, first, hworking]

theorem visitsBefore_congr {disk other : Disk} (hworking : other.working = disk.working)
    (path : String) : other.visitsBefore path = disk.visitsBefore path := by
  rw [visitsBefore, visitsBefore, first, first, hworking]

theorem mem_visits_of_goal {disk : Disk} {path : String} {place : Location}
    (hgoal : disk.goal path = .ok place) : place ∈ disk.visits path := by
  obtain ⟨⟨first, parts⟩, hstart, hfollow⟩ := exists_of_bind_eq_ok hgoal
  obtain ⟨rfl, rfl⟩ := Prod.mk.inj (eq_of_start_eq_ok hstart)
  exact mem_visitsFrom_of_foldlM hfollow

/-! ### Reading -/

theorem step_congr {disk other : Disk} {place : Location} {part : String}
    (hplace : other.find? place = disk.find? place) :
    other.step place part = disk.step place part := by
  rw [step, step, hplace]

theorem foldlM_step_congr {disk other : Disk} {parts : List String} {place : Location}
    (hvisits : ∀ found ∈ visitsFrom place parts, other.find? found = disk.find? found) :
    parts.foldlM other.step place = parts.foldlM disk.step place := by
  induction parts generalizing place with
  | nil => rfl
  | cons part rest ih =>
      rw [List.foldlM_cons, List.foldlM_cons,
        step_congr (hvisits place (self_mem_visitsFrom place _))]
      cases hstep : disk.step place part with
      | error fault => rfl
      | ok next =>
          rw [visitsFrom_cons_of_ok (step_eq_ok_iff.mp hstep).2] at hvisits
          exact ih fun found hfound => hvisits found (List.mem_cons_of_mem place hfound)

/-- A path leads to the same entry on disks that are alike at the places it visits. -/
theorem lookup_congr {disk other : Disk} {path : String}
    (hworking : other.working = disk.working)
    (hvisits : ∀ place ∈ disk.visits path, other.find? place = disk.find? place) :
    other.lookup path = disk.lookup path := by
  have hlocate : other.locate path = disk.locate path := by
    have hstart : other.start path = disk.start path := by rw [start, start, hworking]
    rw [locate, locate, hstart]
    cases hfound : disk.start path with
    | error fault => rfl
    | ok found =>
        rw [eq_of_start_eq_ok hfound]
        exact foldlM_step_congr hvisits
  rw [lookup, lookup, hlocate]
  cases hplace : disk.locate path with
  | error fault => rfl
  | ok place =>
      have hfind := hvisits place (mem_visits_of_goal (goal_of_locate_eq_ok rfl hplace))
      simp only [bind, Except.bind, hfind]

/-- Along directories, a path goes where its parts lead. -/
theorem foldlM_step_eq_follow {disk : Disk} {parts : List String} {place : Location}
    (last : String)
    (hvisits : ∀ found ∈ visitsFrom place parts, disk.find? found = some .directory) :
    (parts ++ [last]).foldlM disk.step place = (parts ++ [last]).foldlM follow place := by
  induction parts generalizing place with
  | nil =>
      have hplace := hvisits place (self_mem_visitsFrom place [])
      rw [List.nil_append, List.foldlM_cons, List.foldlM_cons, step, hplace]
      rfl
  | cons part rest ih =>
      have hplace := hvisits place (self_mem_visitsFrom place _)
      rw [List.cons_append, List.foldlM_cons, List.foldlM_cons, step, hplace]
      cases hnext : follow place part with
      | error fault => rfl
      | ok next =>
          rw [visitsFrom_cons_of_ok hnext] at hvisits
          exact ih fun found hfound => hvisits found (List.mem_cons_of_mem place hfound)

/-! ### Idle parts -/

theorem follow_of_not_isBusyPart {place : Location} {part : String}
    (hpart : isBusyPart part = false) : follow place part = .ok place := by
  simp only [isBusyPart, isIdlePart, Bool.not_eq_false', Bool.or_eq_true,
    decide_eq_true_iff] at hpart
  rw [follow, if_pos (hpart.imp String.toList_eq_nil_iff.mp String.toList_inj.mp)]

/-- Idle parts visit no place of their own. -/
theorem mem_visitsFrom_filter {parts : List String} {place found : Location} :
    found ∈ visitsFrom place (parts.filter isBusyPart) ↔ found ∈ visitsFrom place parts := by
  induction parts generalizing place with
  | nil => rfl
  | cons part rest ih =>
      by_cases hpart : isBusyPart part
      · rw [List.filter_cons_of_pos hpart, visitsFrom, visitsFrom]
        cases follow place part with
        | error fault => rfl
        | ok next => rw [List.mem_cons, List.mem_cons, ih]
      · rw [List.filter_cons_of_neg hpart, ih, visitsFrom_cons_of_ok
          (follow_of_not_isBusyPart (Bool.eq_false_iff.mpr hpart)), List.mem_cons]
        refine ⟨.inr, fun hmem => hmem.elim ?_ id⟩
        rintro rfl
        exact self_mem_visitsFrom found rest

/-! ### Making directories -/

theorem nameInside_of_mem {parts : List String} {last : String} (hlast : last ∈ parts)
    (hbusy : isBusyPart last = true) : nameInside parts = false := by
  have hnot : ¬ (last = "" ∨ last = ".") := by
    rintro (rfl | rfl) <;> exact absurd hbusy (by decide)
  rw [nameInside, Bool.and_eq_false_iff, List.all_eq_false]
  exact .inr ⟨last, hlast, by simpa using hnot⟩

theorem nameInside_of_busy {parts : List String}
    (hparts : ∀ part ∈ parts, isBusyPart part = true) : nameInside parts = false := by
  have hdot : "." ∉ parts := fun hmem => absurd (hparts "." hmem) (by decide)
  simp [nameInside, hdot]

/-- Behind a directory, idle parts make nothing, unless they are the end of the path. -/
theorem makeAlong_filter {disk : Disk} {place : Location} {parts : List String}
    (hends : EndsBusy parts) (hplace : disk.find? place = some .directory) :
    disk.makeAlong place parts = disk.makeAlong place (parts.filter isBusyPart) := by
  induction parts generalizing disk place with
  | nil => rfl
  | cons part rest ih =>
      have hrest := hends.of_cons
      by_cases hpart : isBusyPart part
      · rw [List.filter_cons_of_pos hpart, makeAlong, makeAlong]
        have hempty : (rest.filter isBusyPart).isEmpty = rest.isEmpty := by
          rcases hends.eq_nil_or_exists hpart with rfl | ⟨last, hlast, hbusy⟩
          · rfl
          · have hfilter := List.mem_filter.mpr ⟨hlast, hbusy⟩
            rw [List.isEmpty_eq_false_iff_exists_mem.mpr ⟨last, hlast⟩,
              List.isEmpty_eq_false_iff_exists_mem.mpr ⟨last, hfilter⟩]
        have hinside : nameInside rest = false := by
          rcases hends.eq_nil_or_exists hpart with rfl | ⟨last, hlast, hbusy⟩
          · rfl
          · exact nameInside_of_mem hlast hbusy
        have hbusy : nameInside (rest.filter isBusyPart) = false :=
          nameInside_of_busy fun part hpart => List.of_mem_filter hpart
        cases follow place part with
        | error fault => rfl
        | ok next =>
            simp only [hempty, hinside, hbusy]
            cases hnext : disk.find? next with
            | none =>
                have hne : disk.find? next ≠ some .directory := by simp [hnext]
                exact ih hrest (find?_put_self disk _ (ne_nil_of_find?_ne_directory hne))
            | some entry =>
                cases entry with
                | directory => exact ih hrest hnext
                | file content => rfl
      · rw [List.filter_cons_of_neg hpart, makeAlong,
          follow_of_not_isBusyPart (Bool.eq_false_iff.mpr hpart)]
        simp only [hplace]
        exact ih hrest hplace

/-- The other disk is like the disk at the places, but may have directories where the
disk has nothing. -/
def IsAhead (places : List Location) (disk other : Disk) : Prop :=
  ∀ place ∈ places, other.find? place = disk.find? place ∨
    disk.find? place = none ∧ other.find? place = some .directory

/-- Directories are made at some of the places, on a disk and on one that is ahead. -/
def MadeAlike (places : List Location) (disk made other otherMade : Disk) : Prop :=
  ∀ place, made.find? place = disk.find? place ∧
      otherMade.find? place = other.find? place ∨
    place ∈ places ∧ disk.find? place = none ∧ made.find? place = some .directory ∧
      otherMade.find? place = some .directory

theorem find?_putDirectory {disk : Disk} {place : Location} (hplace : disk.find? place = none)
    (found : Location) :
    (disk.put place .directory).find? found =
      if found = place then some .directory else disk.find? found := by
  by_cases hfound : found = place
  · have hne : disk.find? place ≠ some .directory := by simp [hplace]
    rw [if_pos hfound, hfound, find?_put_self disk _ (ne_nil_of_find?_ne_directory hne)]
  · rw [if_neg hfound, find?_put_of_ne disk _ hfound]

theorem MadeAlike.mono {places more : List Location} {disk made other otherMade : Disk}
    (hmade : MadeAlike places disk made other otherMade) (hmore : places ⊆ more) :
    MadeAlike more disk made other otherMade :=
  fun place => (hmade place).imp id fun ⟨hplace, hfound⟩ => ⟨hmore hplace, hfound⟩

section

variable {places : List Location} {disk other ready : Disk} {next : Location}
  (hfree : disk.find? next = none)
  (hready : ∀ found, ready.find? found =
    if found = next then some .directory else other.find? found)
include hfree hready

/-- A disk that is ahead stays so when it has the directory that is made. -/
theorem IsAhead.put (hahead : IsAhead places disk other) :
    IsAhead places (disk.put next .directory) ready := by
  intro found hfound
  rw [hready, find?_putDirectory hfree]
  by_cases hsame : found = next
  · exact .inl (by rw [if_pos hsame, if_pos hsame])
  · rw [if_neg hsame, if_neg hsame]
    exact hahead found hfound

/-- What is made behind a directory is made with it. -/
theorem MadeAlike.of_put {made otherMade : Disk} (hnext : next ∈ places)
    (hmade : MadeAlike places (disk.put next .directory) made ready otherMade) :
    MadeAlike places disk made other otherMade := by
  intro found
  have hfound := hmade found
  rw [hready, find?_putDirectory hfree] at hfound
  by_cases hsame : found = next
  · rw [if_pos hsame, if_pos hsame] at hfound
    rcases hfound with ⟨hleft, hright⟩ | ⟨_, hnone, _⟩
    · exact .inr ⟨hsame ▸ hnext, hsame ▸ hfree, hleft, hright⟩
    · cases hnone
  · rwa [if_neg hsame, if_neg hsame] at hfound

end

/-- On a disk that is ahead, the same directories are there in the end, or the same fault
keeps them from being made. -/
theorem makeAlong_alike {disk other : Disk} {place : Location} {parts : List String}
    (hbusy : ∀ part ∈ parts, isBusyPart part = true)
    (hahead : IsAhead (visitsFrom place parts) disk other) :
    (other.makeAlong place parts).1 = (disk.makeAlong place parts).1 ∧
      MadeAlike (visitsFrom place parts) disk (disk.makeAlong place parts).2 other
        (other.makeAlong place parts).2 := by
  induction parts generalizing disk other place with
  | nil => exact ⟨rfl, fun found => .inl ⟨rfl, rfl⟩⟩
  | cons part rest ih =>
      have hrest : ∀ part ∈ rest, isBusyPart part = true :=
        fun part hpart => hbusy part (List.mem_cons_of_mem _ hpart)
      rw [makeAlong, makeAlong]
      cases hfollow : follow place part with
      | error fault => exact ⟨rfl, fun found => .inl ⟨rfl, rfl⟩⟩
      | ok next =>
          rw [visitsFrom_cons_of_ok hfollow] at hahead ⊢
          have hnext : IsAhead (visitsFrom next rest) disk other :=
            fun found hfound => hahead found (List.mem_cons_of_mem place hfound)
          have hother := hahead next
            (List.mem_cons_of_mem place (self_mem_visitsFrom next rest))
          simp only [nameInside_of_busy hrest]
          cases hfind : disk.find? next with
          | some entry =>
              have hsame : other.find? next = some entry := by
                rcases hother with hother | ⟨hfree, -⟩
                · rw [hother, hfind]
                · rw [hfind] at hfree
                  cases hfree
              rw [hsame]
              cases entry with
              | directory =>
                  obtain ⟨hdone, hmade⟩ := ih hrest hnext
                  exact ⟨hdone, hmade.mono (List.subset_cons_self place _)⟩
              | file content => exact ⟨rfl, fun found => .inl ⟨rfl, rfl⟩⟩
          | none =>
              have hself := self_mem_visitsFrom next rest
              -- the other disk may have the directory already
              rcases hother with hsame | ⟨-, hdirectory⟩
              · rw [hfind] at hsame
                rw [hsame]
                have hready := find?_putDirectory hsame
                obtain ⟨hdone, hmade⟩ := ih hrest (hnext.put hfind hready)
                exact ⟨hdone, (hmade.of_put hfind hready hself).mono
                  (List.subset_cons_self place _)⟩
              · rw [hdirectory]
                have hready (found : Location) : other.find? found =
                    if found = next then some .directory else other.find? found := by
                  split
                  · next hfound => rw [hfound, hdirectory]
                  · rfl
                obtain ⟨hdone, hmade⟩ := ih hrest (hnext.put hfind hready)
                exact ⟨hdone, (hmade.of_put hfind hready hself).mono
                  (List.subset_cons_self place _)⟩

/-- Once the directories of parts are made, all places on the way are directories. -/
theorem find?_of_makeAlong_eq_ok {disk made : Disk} {place : Location} {parts : List String}
    (hplace : disk.find? place = some .directory)
    (hmade : disk.makeAlong place parts = (.ok (), made)) :
    ∀ found ∈ visitsFrom place parts, made.find? found = some .directory := by
  induction parts generalizing disk place with
  | nil =>
      obtain ⟨-, rfl⟩ := Prod.mk.inj hmade
      intro found hfound
      rwa [List.mem_singleton.mp hfound]
  | cons part rest ih =>
      have hkept := (disk.growsOff_makeAlong place (part :: rest)).keeps_directory place hplace
      rw [hmade] at hkept
      rw [makeAlong] at hmade
      cases hfollow : follow place part with
      | error fault => simp [hfollow] at hmade
      | ok next =>
          rw [visitsFrom_cons_of_ok hfollow, List.forall_mem_cons]
          refine ⟨hkept, ?_⟩
          simp only [hfollow] at hmade
          cases hnext : disk.find? next with
          | none =>
              by_cases hinside : nameInside rest
              · simp [hnext, hinside] at hmade
              · simp only [hnext, hinside, Bool.false_eq_true, if_false] at hmade
                exact ih (by rw [find?_putDirectory hnext, if_pos rfl]) hmade
          | some entry =>
              cases entry with
              | directory =>
                  simp only [hnext] at hmade
                  exact ih hnext hmade
              | file content => simp [hnext] at hmade

/-- The directories on the way to the last part of a path are made with its parent.  Its
text may keep every disk from being asked. -/
theorem exists_makeDirectories_parent {path name : String} {front : List String}
    (hparts : pathParts path = front ++ [name]) (hname : isBusyPart name = true) :
    ∃ parent, parentPath? path = some parent ∧
      ((∃ fault, ∀ disk : Disk, disk.makeDirectories parent = (.error fault, disk)) ∨
        ∀ disk : Disk, disk.find? disk.working = some .directory →
          disk.makeDirectories parent =
            disk.makeAlong (disk.first path) (front.filter isBusyPart)) := by
  obtain ⟨parent, hparent, habsolute, hbusy, hends⟩ := exists_parentPath? hparts hname
  refine ⟨parent, hparent, ?_⟩
  by_cases hempty : parent.isEmpty
  · right
    intro disk _
    rw [String.isEmpty_iff.mp hempty] at hbusy
    rw [makeDirectories, if_pos hempty, ← hbusy]
    rfl
  by_cases hnul : parent.toList.contains '\x00'
  · refine .inl ⟨.nulInName, fun disk => ?_⟩
    rw [makeDirectories, if_neg hempty, start, if_neg hempty, if_pos hnul]
  by_cases hlong : maxPathBytes < parent.utf8ByteSize
  · refine .inl ⟨.nameTooLong, fun disk => ?_⟩
    rw [makeDirectories, if_neg hempty, start, if_neg hempty, if_neg hnul, if_pos hlong]
  · right
    intro disk hworking
    rw [makeDirectories, if_neg hempty, start, if_neg hempty, if_neg hnul, if_neg hlong,
      ← hbusy, busyParts, ← makeAlong_filter hends (find?_first hworking path), first,
      habsolute]

/-! ### Writing -/

/-- Along directories, a path leads to its goal. -/
theorem locate_eq_goal {disk : Disk} {path last : String} {front : List String}
    (hparts : pathParts path = front ++ [last])
    (hvisits : ∀ place ∈ visitsFrom (disk.first path) front,
      disk.find? place = some .directory) : disk.locate path = disk.goal path := by
  rw [locate, goal]
  cases hstart : disk.start path with
  | error fault => rfl
  | ok found =>
      rw [eq_of_start_eq_ok hstart, hparts]
      exact foldlM_step_eq_follow last hvisits

/-- A file is written on both disks where the path leads, or the same fault keeps it
from being written. -/
theorem write_alike {disk other : Disk} {path : String}
    (hdisk : disk.locate path = disk.goal path) (hother : other.locate path = disk.goal path)
    (hgoal : ∀ place, disk.goal path = .ok place → other.find? place = disk.find? place)
    (bytes : List UInt8) :
    (∃ fault, disk.write path bytes = .error fault ∧
        other.write path bytes = .error fault) ∨
      ∃ place, disk.goal path = .ok place ∧ disk.find? place ≠ some .directory ∧
        disk.write path bytes = .ok (disk.put place (.file (.bytes bytes))) ∧
        other.write path bytes = .ok (other.put place (.file (.bytes bytes))) := by
  cases hplace : disk.goal path with
  | error fault =>
      refine .inl ⟨fault, ?_, ?_⟩
      · rw [write, hdisk, hplace]
        rfl
      · rw [write, hother, hplace]
        rfl
  | ok place =>
      rw [hplace] at hdisk hother
      have hsame := hgoal place hplace
      by_cases hdirectory : disk.find? place = some .directory
      · refine .inl ⟨.isDirectory, ?_, ?_⟩
        · simp only [write, hdisk, bind, Except.bind, hdirectory]
          rfl
        · simp only [write, hother, bind, Except.bind, hsame, hdirectory]
          rfl
      · exact .inr ⟨place, rfl, hdirectory, write_eq_ok ⟨hdisk, hdirectory⟩ bytes,
          write_eq_ok ⟨hother, hsame ▸ hdirectory⟩ bytes⟩

end Disk

end LogCorpus
