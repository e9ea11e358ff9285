/-
Excision of a corpus.

The records of occurrences are excised and written one after the other.  A failure
stops nothing: every occurrence has a row in the new index or a failure in the report.
No file changes but those of the records that rows refer to.
-/
import LogCorpus.Corpus.Excision
import LogCorpus.Proofs.Corpus.Storage

namespace LogCorpus

namespace Corpus

variable {source target : Corpus}

/-- Occurrences are excised into their destinations, one after the other.  Each one
whose graph is loaded and excised and whose record is stored is written, with its row.
Each other one is a failure, with its place. -/
inductive Excises (source target : Corpus) :
    Nat → Disk → List (Occurrence × String) → List (Occurrence × Occurrence) →
      List ItemFailure → Disk → Prop
  | done (place : Nat) (disk : Disk) : Excises source target place disk [] [] [] disk
  | written {place : Nat} {disk middle after : Disk} {occurrence : Occurrence}
      {destination : String} {items : List (Occurrence × String)}
      {written : List (Occurrence × Occurrence)} {failures : List ItemFailure}
      {graph : Graph}
      (hexcise : source.exciseOne occurrence disk = .ok graph)
      (hstore : (target.store destination graph).run disk = (.ok (), middle))
      (hrest : Excises source target (place + 1) middle items written failures after) :
      Excises source target place disk ((occurrence, destination) :: items)
        ((occurrence, occurrence.moveTo destination) :: written) failures after
  | unread {place : Nat} {disk after : Disk} {occurrence : Occurrence}
      {destination : String} {items : List (Occurrence × String)}
      {written : List (Occurrence × Occurrence)} {failures : List ItemFailure}
      {fault : Fault}
      (hexcise : source.exciseOne occurrence disk = .error fault)
      (hrest : Excises source target (place + 1) disk items written failures after) :
      Excises source target place disk ((occurrence, destination) :: items) written
        (⟨place, occurrence.graphPath, fault⟩ :: failures) after
  | unwritten {place : Nat} {disk middle after : Disk} {occurrence : Occurrence}
      {destination : String} {items : List (Occurrence × String)}
      {written : List (Occurrence × Occurrence)} {failures : List ItemFailure}
      {graph : Graph} {fault : Fault}
      (hexcise : source.exciseOne occurrence disk = .ok graph)
      (hstore : (target.store destination graph).run disk = (.error fault, middle))
      (hrest : Excises source target (place + 1) middle items written failures after) :
      Excises source target place disk ((occurrence, destination) :: items) written
        (⟨place, occurrence.graphPath, fault⟩ :: failures) after

/-- Excise an occurrence and keep its row, or the failure. -/
def exciseItem (source target : Corpus) (item : Occurrence × String) :
    OnDisk (Except Fault Occurrence) :=
  OnDisk.attempt do
    source.exciseInto target item.1 item.2
    return item.1.moveTo item.2

/-- What becomes of one occurrence: its graph is not loaded or not excised, or its
record is not stored, or it is written. -/
theorem exists_run_exciseItem (source target : Corpus) (occurrence : Occurrence)
    (destination : String) (disk : Disk) :
    (∃ fault, source.exciseOne occurrence disk = .error fault ∧
        (source.exciseItem target (occurrence, destination)).run disk =
          (.ok (.error fault), disk)) ∨
      ∃ graph, source.exciseOne occurrence disk = .ok graph ∧
        ((∃ fault middle,
            (target.store destination graph).run disk = (.error fault, middle) ∧
              (source.exciseItem target (occurrence, destination)).run disk =
                (.ok (.error fault), middle)) ∨
          ∃ middle, (target.store destination graph).run disk = (.ok (), middle) ∧
            (source.exciseItem target (occurrence, destination)).run disk =
              (.ok (.ok (occurrence.moveTo destination)), middle)) := by
  simp only [exciseItem, OnDisk.run_attempt, exciseInto]
  cases hexcise : source.exciseOne occurrence disk with
  | error fault =>
      rw [run_bind_of_error (run_bind_of_error (OnDisk.run_look_of_eq hexcise))]
      exact .inl ⟨fault, rfl, rfl⟩
  | ok graph =>
      have hlook := OnDisk.run_look_of_eq hexcise
      refine .inr ⟨graph, rfl, ?_⟩
      cases hstore : (target.store destination graph).run disk with
      | mk outcome middle =>
          have hinto := (run_bind_of_ok hlook).trans hstore
          cases outcome with
          | error fault =>
              rw [run_bind_of_error hinto]
              exact .inl ⟨fault, middle, rfl, rfl⟩
          | ok done =>
              rw [run_bind_of_ok hinto]
              exact .inr ⟨middle, rfl, rfl⟩

/-- The attempts never stop, and their outcomes are the rows and the failures. -/
theorem exists_run_exciseItems (source target : Corpus)
    (items : List (Occurrence × String)) (place : Nat) (disk : Disk) :
    ∃ outcomes written after,
      (items.mapM (source.exciseItem target)).run disk = (.ok outcomes, after) ∧
        outcomes.length = items.length ∧
        successes outcomes = written.map Prod.snd ∧
        Excises source target place disk items written
          (Report.failuresFrom place ((items.map Prod.fst).zip outcomes)) after := by
  induction items generalizing place disk with
  | nil => exact ⟨[], [], disk, rfl, rfl, rfl, .done place disk⟩
  | cons item items ih =>
      obtain ⟨occurrence, destination⟩ := item
      rcases exists_run_exciseItem source target occurrence destination disk with
        ⟨fault, hexcise, hhead⟩ | ⟨graph, hexcise, ⟨fault, middle, hstore, hhead⟩ |
          ⟨middle, hstore, hhead⟩⟩
      · obtain ⟨outcomes, written, after, htail, hlength, hrows, hrest⟩ :=
          ih (place + 1) disk
        exact ⟨.error fault :: outcomes, written, after, run_mapM_cons_of_ok hhead htail,
          congrArg (· + 1) hlength, hrows, .unread hexcise hrest⟩
      · obtain ⟨outcomes, written, after, htail, hlength, hrows, hrest⟩ :=
          ih (place + 1) middle
        exact ⟨.error fault :: outcomes, written, after, run_mapM_cons_of_ok hhead htail,
          congrArg (· + 1) hlength, hrows, .unwritten hexcise hstore hrest⟩
      · obtain ⟨outcomes, written, after, htail, hlength, hrows, hrest⟩ :=
          ih (place + 1) middle
        exact ⟨.ok (occurrence.moveTo destination) :: outcomes,
          (occurrence, occurrence.moveTo destination) :: written, after,
          run_mapM_cons_of_ok hhead htail, congrArg (· + 1) hlength, congrArg (_ :: ·) hrows,
          .written hexcise hstore hrest⟩

/-- The places of the records that rows refer to. -/
def placesOf (target : Corpus) (disk : Disk) (written : List (Occurrence × Occurrence)) :
    Set Location :=
  {place | ∃ entry ∈ written,
    disk.locate (target.resolve entry.2.graphPath) = .ok place}

section

variable {place : Nat} {disk after : Disk} {items : List (Occurrence × String)}
  {written : List (Occurrence × Occurrence)} {failures : List ItemFailure}
  (hrun : Excises source target place disk items written failures after)
include hrun

theorem Excises.length_eq : written.length + failures.length = items.length := by
  induction hrun with
  | done place disk => rfl
  | written hexcise hstore hrest ih => simp only [List.length_cons] at ih ⊢; omega
  | unread hexcise hrest ih => simp only [List.length_cons] at ih ⊢; omega
  | unwritten hexcise hstore hrest ih => simp only [List.length_cons] at ih ⊢; omega

/-- What is written is the row of an occurrence in its destination. -/
theorem Excises.exists_item {occurrence row : Occurrence}
    (hwritten : (occurrence, row) ∈ written) :
    ∃ destination, (occurrence, destination) ∈ items ∧
      row = occurrence.moveTo destination := by
  induction hrun with
  | done place disk => exact absurd hwritten List.not_mem_nil
  | @written _ _ _ _ head destination _ _ _ _ hexcise hstore hrest ih =>
      rcases List.mem_cons.mp hwritten with heq | htail
      · injection heq with hoccurrence hrow
        subst hoccurrence hrow
        exact ⟨destination, List.mem_cons_self, rfl⟩
      · obtain ⟨found, hmem, hrow⟩ := ih htail
        exact ⟨found, List.mem_cons_of_mem _ hmem, hrow⟩
  | unread hexcise hrest ih =>
      obtain ⟨found, hmem, hrow⟩ := ih hwritten
      exact ⟨found, List.mem_cons_of_mem _ hmem, hrow⟩
  | unwritten hexcise hstore hrest ih =>
      obtain ⟨found, hmem, hrow⟩ := ih hwritten
      exact ⟨found, List.mem_cons_of_mem _ hmem, hrow⟩

/-- Occurrences are written in the order of the items. -/
theorem Excises.sublist : (written.map Prod.fst).Sublist (items.map Prod.fst) := by
  induction hrun with
  | done place disk => exact List.Sublist.refl _
  | written hexcise hstore hrest ih => exact ih.cons_cons _
  | unread hexcise hrest ih => exact ih.cons _
  | unwritten hexcise hstore hrest ih => exact ih.cons _

/-- No file changes but those of the records written. -/
theorem Excises.growsOff : Disk.GrowsOff (target.placesOf after written) disk after := by
  induction hrun with
  | done place disk => exact Disk.GrowsOff.refl _ disk
  | written hexcise hstore hrest ih =>
      obtain ⟨_, found, hlocate, hgrows⟩ := holds_of_run_store_eq_ok hstore
      have hlast := ih.locate_eq_ok hlocate
      apply (hgrows.mono _).trans (ih.mono _)
      · rintro _ rfl
        exact ⟨_, List.mem_cons_self, hlast⟩
      · rintro found ⟨entry, hentry, hfound⟩
        exact ⟨entry, List.mem_cons_of_mem _ hentry, hfound⟩
  | unread hexcise hrest ih => exact ih
  | unwritten hexcise hstore hrest ih =>
      exact ((growsOff_of_run_store_eq_error hstore).mono (Set.empty_subset _)).trans ih

/-- The path of every row leads to a place. -/
theorem Excises.exists_locate_eq_ok {entry : Occurrence × Occurrence}
    (hentry : entry ∈ written) :
    ∃ found, after.locate (target.resolve entry.2.graphPath) = .ok found := by
  induction hrun with
  | done place disk => exact absurd hentry List.not_mem_nil
  | written hexcise hstore hrest ih =>
      rcases List.mem_cons.mp hentry with rfl | htail
      · obtain ⟨_, found, hlocate, _⟩ := holds_of_run_store_eq_ok hstore
        exact ⟨found, hrest.growsOff.locate_eq_ok hlocate⟩
      · exact ih htail
  | unread hexcise hrest ih => exact ih hentry
  | unwritten hexcise hstore hrest ih => exact ih hentry

/-- Where no graph is excised, nothing is written and the disk stays as it is. -/
theorem Excises.eq_of_unread
    (hunread : ∀ item ∈ items, ∃ fault, source.exciseOne item.1 disk = .error fault) :
    written = [] ∧ after = disk := by
  -- a graph that is excised contradicts the hypothesis, before anything changes
  have hhead {occurrence : Occurrence} {destination : String}
      {rest : List (Occurrence × String)} {disk : Disk} {graph : Graph}
      (hexcise : source.exciseOne occurrence disk = .ok graph) :
      ¬ ∀ item ∈ (occurrence, destination) :: rest,
        ∃ fault, source.exciseOne item.1 disk = .error fault := by
    intro hall
    obtain ⟨fault, hfault⟩ := hall _ List.mem_cons_self
    rw [hexcise] at hfault
    cases hfault
  induction hrun with
  | done place disk => exact ⟨rfl, rfl⟩
  | written hexcise hstore hrest ih => exact absurd hunread (hhead hexcise)
  | unread hexcise hrest ih =>
      exact ih fun item hitem => hunread item (List.mem_cons_of_mem _ hitem)
  | unwritten hexcise hstore hrest ih => exact absurd hunread (hhead hexcise)

/-- The graph of an occurrence that is written is excised on a disk that has grown. -/
theorem Excises.exists_grown {entry : Occurrence × Occurrence} (hentry : entry ∈ written) :
    ∃ middle graph, Disk.GrowsOff Set.univ disk middle ∧
      source.exciseOne entry.1 middle = .ok graph := by
  induction hrun with
  | done place disk => exact absurd hentry List.not_mem_nil
  | @written _ disk _ _ _ _ _ _ _ graph hexcise hstore hrest ih =>
      rcases List.mem_cons.mp hentry with rfl | htail
      · exact ⟨disk, graph, Disk.GrowsOff.refl _ disk, hexcise⟩
      · obtain ⟨middle, found, hgrows, hfound⟩ := ih htail
        obtain ⟨_, _, _, hstored⟩ := holds_of_run_store_eq_ok hstore
        exact ⟨middle, found, (hstored.mono (Set.subset_univ _)).trans hgrows, hfound⟩
  | unread hexcise hrest ih => exact ih hentry
  | unwritten hexcise hstore hrest ih =>
      obtain ⟨middle, found, hgrows, hfound⟩ := ih hentry
      have hmade := growsOff_of_run_store_eq_error hstore
      exact ⟨middle, found, (hmade.mono (Set.subset_univ _)).trans hgrows, hfound⟩

end

/-! ### All occurrences of a list -/

theorem length_numberPaths (counts : Std.TreeMap String Nat) (paths : List String) :
    (numberPaths counts paths).length = paths.length := by
  induction paths generalizing counts with
  | nil => rfl
  | cons path rest ih => rw [numberPaths, List.length_cons, List.length_cons, ih]

/-- The occurrences with their destinations. -/
def withDestinations (occurrences : List Occurrence) : List (Occurrence × String) :=
  occurrences.zip (destinations occurrences)

theorem map_fst_withDestinations (occurrences : List Occurrence) :
    (withDestinations occurrences).map Prod.fst = occurrences := by
  apply List.map_fst_zip
  rw [destinations, length_numberPaths, List.length_map]

theorem fst_mem_of_withDestinations {occurrences : List Occurrence}
    {item : Occurrence × String} (hitem : item ∈ withDestinations occurrences) :
    item.1 ∈ occurrences := by
  rw [← map_fst_withDestinations occurrences]
  exact List.mem_map_of_mem hitem

/-- Occurrences are written in their order. -/
theorem Excises.sublist_occurrences {source target : Corpus} {place : Nat}
    {disk after : Disk} {occurrences : List Occurrence}
    {written : List (Occurrence × Occurrence)} {failures : List ItemFailure}
    (hrun : Excises source target place disk (withDestinations occurrences) written
      failures after) : (written.map Prod.fst).Sublist occurrences := by
  have hsublist := hrun.sublist
  rwa [map_fst_withDestinations] at hsublist

/-- The disk that is left when occurrences have been excised. -/
def excisedDisk (source target : Corpus) (occurrences : List Occurrence)
    (disk : Disk) : Disk :=
  ((source.exciseAll target occurrences).run disk).2

/-- Excising all occurrences never fails.  The index has the row of each occurrence
that is written, the report the failure of each other one. -/
theorem exists_run_exciseAll (source target : Corpus) (occurrences : List Occurrence)
    (disk : Disk) :
    ∃ written report,
      (source.exciseAll target occurrences).run disk =
          (.ok (written.map Prod.snd, report),
            source.excisedDisk target occurrences disk) ∧
        Excises source target 0 disk (withDestinations occurrences) written
          report.failures (source.excisedDisk target occurrences disk) ∧
        report.total = occurrences.length ∧ report.succeeded = written.length ∧
        report.succeeded + report.failures.length = report.total := by
  obtain ⟨outcomes, written, after, hrun, hlength, hrows, hexcises⟩ :=
    exists_run_exciseItems source target (withDestinations occurrences) 0 disk
  have hall : (source.exciseAll target occurrences).run disk =
      (.ok (successes outcomes, .ofOutcomes (occurrences.zip outcomes)), after) := by
    change ((withDestinations occurrences).mapM (source.exciseItem target) >>= _).run
      disk = _
    rw [run_bind_of_ok hrun]
    rfl
  have hafter : source.excisedDisk target occurrences disk = after := by
    rw [excisedDisk, hall]
  rw [map_fst_withDestinations] at hexcises
  have hitems : (withDestinations occurrences).length = occurrences.length := by
    rw [← List.length_map, map_fst_withDestinations]
  have hcount := hexcises.length_eq
  have htotal : (Report.ofOutcomes (occurrences.zip outcomes)).total =
      occurrences.length := by
    rw [Report.ofOutcomes, List.length_zip, hlength, hitems, Nat.min_self]
  have hsum := Report.succeeded_add_failures (occurrences.zip outcomes)
  rw [hafter]
  refine ⟨written, .ofOutcomes (occurrences.zip outcomes), hrows ▸ hall, hexcises, htotal,
    ?_, hsum⟩
  change _ + (Report.failuresFrom 0 (occurrences.zip outcomes)).length = _ at hsum
  omega

end Corpus

end LogCorpus
