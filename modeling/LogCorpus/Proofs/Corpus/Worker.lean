/-
A worker, alone and among others.

Excising an occurrence reads one record, makes the directories on the way of another one
and writes it.  On a disk on which others have only made directories on this way, a
worker goes on as if alone: with the same outcome and the same entries at the places
that are changed.
-/
import LogCorpus.Corpus.Excision
import LogCorpus.Proofs.Conversion.Converter
import LogCorpus.Proofs.Storage.Joining
import LogCorpus.Proofs.Storage.Visits

namespace LogCorpus

namespace Corpus

/-! ### One step -/

/-- A step changes a disk and one that is ahead of it alike: each place stays as it is on
both, or it is the goal of the path or a missing directory on the way, and the same on
both afterwards. -/
def ChangedAlike (path : String) (disk after other otherAfter : Disk) : Prop :=
  ∀ place, after.find? place = disk.find? place ∧
      otherAfter.find? place = other.find? place ∨
    otherAfter.find? place = after.find? place ∧
      (disk.goal path = .ok place ∧ disk.find? place ≠ some .directory ∨
        place ∈ disk.visits path ∧ disk.find? place = none ∧
          after.find? place = some .directory)

theorem ChangedAlike.refl (path : String) (disk other : Disk) :
    ChangedAlike path disk disk other other :=
  fun _ => .inl ⟨rfl, rfl⟩

theorem exciseOne_congr {source : Corpus} {occurrence : Occurrence} {disk other : Disk}
    (hlookup : other.lookup (source.resolve occurrence.graphPath) =
      disk.lookup (source.resolve occurrence.graphPath)) :
    source.exciseOne occurrence other = source.exciseOne occurrence disk := by
  rw [exciseOne, exciseOne, load_congr hlookup]

theorem mem_visitsBefore_of_filter {disk : Disk} {path last : String} {front : List String}
    (hparts : pathParts path = front ++ [last]) {place : Location} :
    place ∈ Disk.visitsFrom (disk.first path) (front.filter isBusyPart) ↔
      place ∈ disk.visitsBefore path := by
  rw [Disk.mem_visitsFrom_filter, Disk.visitsBefore, hparts, List.dropLast_concat]

section

variable {target : Corpus} {graphPath : String} {disk other : Disk}
  (hworking : other.working = disk.working)
include hworking

/-- The directories of a record are prepared alike. -/
theorem prepare_alike (hends : endsInName graphPath)
    (hdirectory : disk.find? disk.working = some .directory)
    (hotherDirectory : other.find? other.working = some .directory)
    (hahead : Disk.IsAhead (disk.visits (target.resolve graphPath)) disk other) :
    ((target.prepare graphPath).run other).1 = ((target.prepare graphPath).run disk).1 ∧
      ChangedAlike (target.resolve graphPath) disk ((target.prepare graphPath).run disk).2
        other ((target.prepare graphPath).run other).2 ∧
      (((target.prepare graphPath).run disk).1 = .ok () →
        ∀ place ∈ disk.visitsBefore (target.resolve graphPath),
          ((target.prepare graphPath).run disk).2.find? place = some .directory) := by
  obtain ⟨front, last, hparts⟩ := exists_pathParts_eq_concat (target.resolve graphPath)
  have hlast : isBusyPart last = true := by
    rw [← endsInName_joinPath target.root, ← resolve, endsInName_eq hparts,
      decide_eq_true_iff] at hends
    exact isBusyPart_of_ne hends.1 hends.2.1
  have hvisits {place : Location} :
      place ∈ Disk.visitsFrom (disk.first (target.resolve graphPath))
          (front.filter isBusyPart) ↔ place ∈ disk.visitsBefore (target.resolve graphPath) :=
    mem_visitsBefore_of_filter hparts
  obtain ⟨parent, hparent, hmake⟩ := Disk.exists_makeDirectories_parent hparts hlast
  have hrun (disk : Disk) : (target.prepare graphPath).run disk =
      ((disk.makeDirectories parent).1.mapError
        (DiskFault.toFault s!"Cannot create '{parent}'"), (disk.makeDirectories parent).2) := by
    rw [prepare, hparent]
    rfl
  rw [hrun, hrun]
  rcases hmake with ⟨fault, hfault⟩ | hmake
  · rw [hfault, hfault]
    exact ⟨rfl, .refl _ disk other, fun hdone => nomatch hdone⟩
  · have hother := hmake other hotherDirectory
    rw [Disk.first, hworking, ← Disk.first] at hother
    rw [hmake disk hdirectory, hother]
    obtain ⟨hdone, hmade⟩ := Disk.makeAlong_alike
      (fun part hpart => List.of_mem_filter hpart)
      (fun place hplace => hahead place (disk.visitsBefore_subset _ (hvisits.mp hplace)))
    refine ⟨by rw [hdone], fun place => ?_, fun hok place hplace => ?_⟩
    · rcases hmade place with hsame | ⟨hplace, hfree, hleft, hright⟩
      · exact .inl hsame
      · exact .inr ⟨hright.trans hleft.symm,
          .inr ⟨disk.visitsBefore_subset _ (hvisits.mp hplace), hfree, hleft⟩⟩
    · exact Disk.find?_of_makeAlong_eq_ok (Disk.find?_first hdirectory _)
        (Prod.ext (eq_ok_of_mapError_eq_ok hok) rfl) place (hvisits.mpr hplace)

/-- The record is written alike. -/
theorem writeRecord_alike {graph : Graph}
    (hdisk : ∀ place ∈ disk.visitsBefore (target.resolve graphPath),
      disk.find? place = some .directory)
    (hother : ∀ place ∈ disk.visitsBefore (target.resolve graphPath),
      other.find? place = some .directory)
    (hgoal : ∀ place, disk.goal (target.resolve graphPath) = .ok place →
      other.find? place = disk.find? place) :
    ((target.writeRecord graphPath graph).run other).1 =
        ((target.writeRecord graphPath graph).run disk).1 ∧
      ChangedAlike (target.resolve graphPath) disk
        ((target.writeRecord graphPath graph).run disk).2 other
        ((target.writeRecord graphPath graph).run other).2 := by
  obtain ⟨front, last, hparts⟩ := exists_pathParts_eq_concat (target.resolve graphPath)
  have hfirst : other.first (target.resolve graphPath) =
      disk.first (target.resolve graphPath) := by
    rw [Disk.first, hworking, ← Disk.first]
  rw [Disk.visitsBefore, hparts, List.dropLast_concat] at hdisk hother
  have hlocate := Disk.locate_eq_goal hparts hdisk
  have hotherLocate := Disk.locate_eq_goal hparts (hfirst ▸ hother)
  rw [Disk.goal_congr hworking] at hotherLocate
  simp only [writeRecord]
  rcases Disk.write_alike hlocate hotherLocate hgoal graph.toRecord with
    ⟨fault, hleft, hright⟩ | ⟨place, hplace, hfree, hleft, hright⟩
  · rw [OnDisk.run_change_of_error hright, OnDisk.run_change_of_error hleft]
    exact ⟨rfl, .refl _ disk other⟩
  · rw [OnDisk.run_change_of_ok hright, OnDisk.run_change_of_ok hleft]
    refine ⟨rfl, fun found => ?_⟩
    by_cases hfound : found = place
    · have hne := Disk.ne_nil_of_find?_ne_directory hfree
      refine .inr ⟨?_, .inl ⟨hfound ▸ hplace, hfound ▸ hfree⟩⟩
      rw [hfound, Disk.find?_put_self other _ hne, Disk.find?_put_self disk _ hne]
    · exact .inl ⟨Disk.find?_put_of_ne disk _ hfound, Disk.find?_put_of_ne other _ hfound⟩

end

/-! ### A worker alone -/

/-- The work on an occurrence, and the disk, after so many goes of a worker who is
alone. -/
def workAlone (source target : Corpus) (item : Occurrence × String) (disk : Disk) :
    Nat → Work × Disk
  | 0 => (.waiting, disk)
  | count + 1 =>
      let (work, after) := workAlone source target item disk count
      work.next source target item after

theorem workAlone_succ (source target : Corpus) (item : Occurrence × String) (disk : Disk)
    (count : Nat) : workAlone source target item disk (count + 1) =
      (workAlone source target item disk count).1.next source target item
        (workAlone source target item disk count).2 :=
  rfl

/-- The disk that a worker alone has reached with the work on a record. -/
structure Alone (path : String) (disk : Disk) (work : Work) (after : Disk) : Prop where
  working_eq : after.working = disk.working
  keeps_directory : ∀ place, disk.find? place = some .directory →
    after.find? place = some .directory
  changed : ∀ place, after.find? place ≠ disk.find? place →
    disk.goal path = .ok place ∨ place ∈ disk.visits path ∧ disk.find? place = none ∧
      after.find? place = some .directory
  prepared : ∀ graph, work = .prepared graph → ∀ place ∈ disk.visitsBefore path,
    after.find? place = some .directory

/-- A disk on which others work too, as a worker needs it: his own changes are there,
others have only made directories on the way of his record. -/
structure Shares (source target : Corpus) (item : Occurrence × String)
    (disk alone shared : Disk) : Prop where
  working_eq : shared.working = disk.working
  keeps_directory : ∀ place, disk.find? place = some .directory →
    shared.find? place = some .directory
  source_eq : ∀ place ∈ disk.visits (source.resolve item.1.graphPath),
    shared.find? place = alone.find? place
  isAhead : Disk.IsAhead (disk.visits (target.resolve item.2)) alone shared
  goal_eq : ∀ place, disk.goal (target.resolve item.2) = .ok place →
    shared.find? place = alone.find? place

section

variable {source target : Corpus} {item : Occurrence × String} {disk alone shared : Disk}
  {work : Work}

/-- The directories of a record are prepared as by a worker alone. -/
theorem Shares.prepare_alike (hshares : Shares source target item disk alone shared)
    (hends : endsInName item.2) (hdirectory : disk.find? disk.working = some .directory)
    (halone : Alone (target.resolve item.2) disk work alone) :
    ((target.prepare item.2).run shared).1 = ((target.prepare item.2).run alone).1 ∧
      ChangedAlike (target.resolve item.2) alone ((target.prepare item.2).run alone).2
        shared ((target.prepare item.2).run shared).2 ∧
      (((target.prepare item.2).run alone).1 = .ok () →
        ∀ place ∈ disk.visitsBefore (target.resolve item.2),
          ((target.prepare item.2).run alone).2.find? place = some .directory) := by
  have haloneDirectory : alone.find? alone.working = some .directory := by
    rw [halone.working_eq]
    exact halone.keeps_directory _ hdirectory
  have hsharedDirectory : shared.find? shared.working = some .directory := by
    rw [hshares.working_eq]
    exact hshares.keeps_directory _ hdirectory
  have hahead := hshares.isAhead
  rw [← Disk.visits_congr halone.working_eq] at hahead
  rw [← Disk.visitsBefore_congr halone.working_eq]
  exact Corpus.prepare_alike (hshares.working_eq.trans halone.working_eq.symm) hends
    haloneDirectory hsharedDirectory hahead

/-- The record is written as by a worker alone. -/
theorem Shares.writeRecord_alike (hshares : Shares source target item disk alone shared)
    {graph : Graph} (halone : Alone (target.resolve item.2) disk (.prepared graph) alone) :
    ((target.writeRecord item.2 graph).run shared).1 =
        ((target.writeRecord item.2 graph).run alone).1 ∧
      ChangedAlike (target.resolve item.2) alone
        ((target.writeRecord item.2 graph).run alone).2 shared
        ((target.writeRecord item.2 graph).run shared).2 := by
  have halonePrepared := halone.prepared graph rfl
  have hsharedPrepared : ∀ place ∈ disk.visitsBefore (target.resolve item.2),
      shared.find? place = some .directory := by
    intro place hplace
    have hfound := halonePrepared place hplace
    rcases hshares.isAhead place (disk.visitsBefore_subset _ hplace) with
      hsame | ⟨hfree, -⟩
    · rw [hsame, hfound]
    · rw [hfound] at hfree
      cases hfree
  have hgoal := hshares.goal_eq
  rw [← Disk.visitsBefore_congr halone.working_eq] at halonePrepared hsharedPrepared
  rw [← Disk.goal_congr halone.working_eq] at hgoal
  exact Corpus.writeRecord_alike (hshares.working_eq.trans halone.working_eq.symm)
    halonePrepared hsharedPrepared hgoal

/-- A worker goes on alike, alone and on a disk on which others work too. -/
theorem next_alike (hends : endsInName item.2)
    (hdirectory : disk.find? disk.working = some .directory)
    (halone : Alone (target.resolve item.2) disk work alone)
    (hshares : Shares source target item disk alone shared) :
    (work.next source target item shared).1 = (work.next source target item alone).1 ∧
      ChangedAlike (target.resolve item.2) alone (work.next source target item alone).2
        shared (work.next source target item shared).2 ∧
      ∀ graph, (work.next source target item alone).1 = .prepared graph →
        ∀ place ∈ disk.visitsBefore (target.resolve item.2),
          (work.next source target item alone).2.find? place = some .directory := by
  cases work with
  | waiting =>
      have hlookup : shared.lookup (source.resolve item.1.graphPath) =
          alone.lookup (source.resolve item.1.graphPath) := by
        apply Disk.lookup_congr (hshares.working_eq.trans halone.working_eq.symm)
        rw [Disk.visits_congr halone.working_eq]
        exact hshares.source_eq
      simp only [Work.next, exciseOne_congr hlookup]
      cases source.exciseOne item.1 alone with
      | error fault => exact ⟨rfl, .refl _ alone shared, fun graph hgraph => nomatch hgraph⟩
      | ok graph => exact ⟨rfl, .refl _ alone shared, fun graph hgraph => nomatch hgraph⟩
  | excised graph =>
      obtain ⟨hdone, hchanged, hprepared⟩ := hshares.prepare_alike hends hdirectory halone
      simp only [Work.next]
      cases hrun : (target.prepare item.2).run alone with
      | mk outcome after =>
          cases hother : (target.prepare item.2).run shared with
          | mk outcome' sharedAfter =>
              rw [hrun, hother] at hdone hchanged
              rw [hrun] at hprepared
              obtain rfl : outcome' = outcome := hdone
              cases outcome' with
              | error fault => exact ⟨rfl, hchanged, fun graph hgraph => nomatch hgraph⟩
              | ok made => exact ⟨rfl, hchanged, fun _ _ => hprepared rfl⟩
  | prepared graph =>
      obtain ⟨hdone, hchanged⟩ := hshares.writeRecord_alike halone
      exact ⟨congrArg Work.ended hdone, hchanged, fun graph hgraph => nomatch hgraph⟩
  | ended outcome => exact ⟨rfl, .refl _ alone shared, fun graph hgraph => nomatch hgraph⟩

theorem working_next (source target : Corpus) (item : Occurrence × String) (work : Work)
    (disk : Disk) : (work.next source target item disk).2.working = disk.working := by
  cases work with
  | waiting =>
      simp only [Work.next]
      cases source.exciseOne item.1 disk <;> rfl
  | excised graph =>
      have hprepare : ((target.prepare item.2).run disk).2.working = disk.working := by
        rw [prepare]
        split
        · exact (disk.growsOff_makeDirectories _).working_eq
        · rfl
      simp only [Work.next]
      split
      · next hrun => rwa [hrun] at hprepare
      · next hrun => rwa [hrun] at hprepare
  | prepared graph =>
      simp only [Work.next, writeRecord]
      rcases OnDisk.run_change_write s!"Cannot write '{target.resolve item.2}'"
        (target.resolve item.2) graph.toRecord disk with ⟨fault, hrun⟩ | ⟨place, -, hrun⟩
      · rw [hrun]
      · rw [hrun]
        rfl
  | ended outcome => rfl

theorem Shares.refl (hkeeps : Alone (target.resolve item.2) disk work alone) :
    Shares source target item disk alone alone :=
  ⟨hkeeps.working_eq, hkeeps.keeps_directory, fun _ _ => rfl, fun _ _ => .inl rfl,
    fun _ _ => rfl⟩

/-- One step of a worker alone. -/
theorem Alone.next (source : Corpus) (hends : endsInName item.2)
    (hdirectory : disk.find? disk.working = some .directory)
    (halone : Alone (target.resolve item.2) disk work alone) :
    Alone (target.resolve item.2) disk (work.next source target item alone).1
      (work.next source target item alone).2 := by
  have hshares : Shares source target item disk alone alone := .refl halone
  obtain ⟨-, hchanged, hprepared⟩ := next_alike hends hdirectory halone hshares
  refine ⟨(working_next source target item work alone).trans halone.working_eq, ?_, ?_,
    hprepared⟩
  · intro place hplace
    have hkept := halone.keeps_directory place hplace
    rcases hchanged place with ⟨hsame, -⟩ | ⟨-, ⟨-, hnot⟩ | ⟨-, hfree, -⟩⟩
    · rw [hsame, hkept]
    · exact absurd hkept hnot
    · rw [hkept] at hfree
      cases hfree
  · intro place hplace
    rcases hchanged place with ⟨hsame, -⟩ | ⟨-, ⟨hgoal, -⟩ | ⟨hvisits, hfree, hmade⟩⟩
    · rw [hsame] at hplace ⊢
      exact halone.changed place hplace
    · rw [Disk.goal_congr halone.working_eq] at hgoal
      exact .inl hgoal
    · rw [Disk.visits_congr halone.working_eq] at hvisits
      by_cases hsame : alone.find? place = disk.find? place
      · exact .inr ⟨hvisits, hsame ▸ hfree, hmade⟩
      · refine (halone.changed place hsame).imp id fun ⟨_, _, hdirectory⟩ => ?_
        rw [hfree] at hdirectory
        cases hdirectory

end

/-- The disk of a worker alone differs from the disk at the start by his record and the
directories on its way. -/
theorem alone_workAlone (source target : Corpus) {item : Occurrence × String} {disk : Disk}
    (hends : endsInName item.2) (hdirectory : disk.find? disk.working = some .directory)
    (count : Nat) :
    Alone (target.resolve item.2) disk (workAlone source target item disk count).1
      (workAlone source target item disk count).2 := by
  induction count with
  | zero =>
      exact ⟨rfl, fun _ hplace => hplace, fun _ hne => absurd rfl hne,
        fun graph hgraph => nomatch hgraph⟩
  | succ count ih => exact ih.next source hends hdirectory

end Corpus

end LogCorpus
