/-
What keeps an item from its result.

A record that cannot be read, a statement that is not found, a graph that is too
large or without a sentinel: every fault of a conversion or an excision concerns the
one item, and so does every fault of a change on the disk.  Each step is shown to
have only such faults, and a sequence has them if its steps do.
-/
import LogCorpus.Conversion.Batch
import LogCorpus.Conversion.Dataset
import LogCorpus.Corpus.Excision
import LogCorpus.Proofs.Storage.Growth

namespace LogCorpus

/-- Whatever keeps the computation from a result concerns one item only. -/
def FailsPerItem (outcome : Except Fault α) : Prop :=
  ∀ fault, outcome = .error fault → fault.isPerItem = true

theorem failsPerItem_ok (value : α) : FailsPerItem (.ok value) := by
  intro fault hfault
  cases hfault

theorem failsPerItem_error {fault : Fault} (hfault : fault.isPerItem = true) :
    FailsPerItem (.error fault : Except Fault α) := by
  intro other hother
  injection hother with hother
  rwa [← hother]

theorem FailsPerItem.bind {step : Except Fault α} {next : α → Except Fault β}
    (hstep : FailsPerItem step) (hnext : ∀ value, FailsPerItem (next value)) :
    FailsPerItem (step >>= next) := by
  cases step with
  | error fault => exact failsPerItem_error (hstep fault rfl)
  | ok value => exact hnext value

theorem FailsPerItem.map {step : Except Fault α} (hstep : FailsPerItem step)
    (image : α → β) : FailsPerItem (step.map image) := by
  cases step with
  | error fault => exact failsPerItem_error (hstep fault rfl)
  | ok value => exact failsPerItem_ok (image value)

/-- A cause from elsewhere, under a name that concerns one item. -/
theorem failsPerItem_mapError {step : Except ε α} {rename : ε → Fault}
    (hrename : ∀ cause, (rename cause).isPerItem = true) :
    FailsPerItem (step.mapError rename) := by
  cases step with
  | error cause => exact failsPerItem_error (hrename cause)
  | ok value => exact failsPerItem_ok value

theorem failsPerItem_mapM {step : α → Except Fault β} {items : List α}
    (hstep : ∀ item, FailsPerItem (step item)) : FailsPerItem (items.mapM step) := by
  induction items with
  | nil => exact failsPerItem_ok []
  | cons head tail ih =>
      rw [List.mapM_cons]
      exact (hstep head).bind fun first => ih.bind fun rest => failsPerItem_ok _

theorem Graph.failsPerItem_check (graph : Graph) : FailsPerItem graph.check := by
  rw [check]
  split
  · exact failsPerItem_error rfl
  · split
    · exact failsPerItem_error rfl
    · exact failsPerItem_ok ()

theorem Graph.failsPerItem_ofRecord (record : List UInt8) :
    FailsPerItem (ofRecord record) := by
  rw [ofRecord]
  refine (failsPerItem_mapError fun cause => rfl).bind fun graph => ?_
  exact graph.failsPerItem_check.bind fun _ => failsPerItem_ok graph

theorem failsPerItem_readRecordFile (path : String) (disk : Disk) :
    FailsPerItem (readRecordFile path disk) := by
  rw [readRecordFile]
  refine (failsPerItem_mapError fun cause => rfl).bind fun start => ?_
  refine (failsPerItem_mapError fun cause => rfl).bind fun _ => ?_
  refine (failsPerItem_mapError fun cause => rfl).bind fun bytes => ?_
  exact Graph.failsPerItem_ofRecord bytes

theorem Corpus.failsPerItem_load (corpus : Corpus) (graphPath : String) (disk : Disk) :
    FailsPerItem (corpus.load graphPath disk) := by
  rw [load]
  refine (failsPerItem_mapError fun cause => rfl).bind fun size => ?_
  split
  · exact failsPerItem_error rfl
  · exact failsPerItem_readRecordFile _ disk

theorem Graph.failsPerItem_locate (graph : Graph) (root : UInt64) :
    FailsPerItem (graph.locate root) := by
  rw [locate]
  split
  · exact failsPerItem_error rfl
  · split
    · exact failsPerItem_error rfl
    · exact failsPerItem_ok _

theorem Graph.failsPerItem_excise (graph : Graph) (root : UInt64) :
    FailsPerItem (graph.excise root) :=
  (graph.failsPerItem_locate root).bind fun _ => failsPerItem_ok _

theorem Graph.failsPerItem_project (graph : Graph) (target : Target) :
    FailsPerItem (graph.project target) := by
  have hplaced : FailsPerItem graph.placedEdges := by
    apply failsPerItem_mapM
    intro edge
    split
    · exact failsPerItem_ok _
    · exact failsPerItem_error rfl
  exact hplaced.bind fun _ => failsPerItem_ok _

theorem Projector.failsPerItem_project (projector : Projector) (graph : Graph)
    (occurrence : Occurrence) : FailsPerItem (projector.project graph occurrence) := by
  rw [project]
  refine (graph.failsPerItem_project _).bind fun training => ?_
  split
  · exact failsPerItem_error rfl
  · exact failsPerItem_ok training

theorem Converter.failsPerItem_convert (converter : Converter) (disk : Disk)
    (occurrence : Occurrence) : FailsPerItem (converter.convert disk occurrence) := by
  have hexcised (graph : Graph) : FailsPerItem (excised graph occurrence) := by
    rw [excised]
    split
    · exact (graph.failsPerItem_excise _).map _
    · exact failsPerItem_ok graph
  rw [convert]
  refine (converter.corpus.failsPerItem_load _ disk).bind fun graph => ?_
  split
  · exact failsPerItem_error rfl
  · exact (hexcised graph).bind fun after =>
      converter.projector.failsPerItem_project after occurrence

theorem Corpus.failsPerItem_exciseOne (corpus : Corpus) (occurrence : Occurrence)
    (disk : Disk) : FailsPerItem (corpus.exciseOne occurrence disk) := by
  rw [exciseOne]
  split
  · exact failsPerItem_error rfl
  · refine (corpus.failsPerItem_load _ disk).bind fun graph => ?_
    exact (graph.failsPerItem_excise _).bind fun _ => failsPerItem_ok _

namespace OnDisk

/-- Whatever keeps the computation from a result concerns one item only, on every
disk. -/
def FailsPerItem (computation : OnDisk α) : Prop :=
  ∀ disk, LogCorpus.FailsPerItem (computation.run disk).1

theorem failsPerItem_pure (value : α) : FailsPerItem (pure value) :=
  fun _ => failsPerItem_ok value

theorem FailsPerItem.bind {step : OnDisk α} {next : α → OnDisk β}
    (hstep : FailsPerItem step) (hnext : ∀ value, FailsPerItem (next value)) :
    FailsPerItem (step >>= next) := by
  intro disk
  have hfirst := hstep disk
  cases hrun : step.run disk with
  | mk outcome middle =>
      rw [hrun] at hfirst
      cases outcome with
      | error fault =>
          rw [run_bind_of_error hrun]
          exact failsPerItem_error (hfirst fault rfl)
      | ok value =>
          rw [run_bind_of_ok hrun]
          exact hnext value middle

theorem failsPerItem_mapM {step : α → OnDisk β} {items : List α}
    (hstep : ∀ item, FailsPerItem (step item)) : FailsPerItem (items.mapM step) := by
  induction items with
  | nil => exact failsPerItem_pure []
  | cons head tail ih =>
      rw [List.mapM_cons]
      exact (hstep head).bind fun first => ih.bind fun rest => failsPerItem_pure _

theorem failsPerItem_look {query : Disk → Except Fault α}
    (hquery : ∀ disk, LogCorpus.FailsPerItem (query disk)) : FailsPerItem (look query) :=
  hquery

theorem failsPerItem_change (action : String)
    (operation : Disk → Except DiskFault Disk) :
    FailsPerItem (change action operation) := by
  intro disk
  cases hoperation : operation disk with
  | ok changed =>
      rw [run_change_of_ok hoperation]
      exact failsPerItem_ok ()
  | error cause =>
      rw [run_change_of_error hoperation]
      exact failsPerItem_error rfl

theorem failsPerItem_makeDirectories (path : String) :
    FailsPerItem (makeDirectories path) :=
  fun _ => failsPerItem_mapError fun _ => rfl

end OnDisk

theorem Corpus.failsPerItem_store (corpus : Corpus) (graphPath : String)
    (graph : Graph) : (corpus.store graphPath graph).FailsPerItem := by
  have hprepare : (corpus.prepare graphPath).FailsPerItem := by
    rw [prepare]
    split
    · exact OnDisk.failsPerItem_makeDirectories _
    · exact OnDisk.failsPerItem_pure ()
  exact hprepare.bind fun _ => OnDisk.failsPerItem_change _ _

theorem Dataset.failsPerItem_writePart (dataset : Dataset) (part : Part)
    (examples : List TrainingExample) : (dataset.writePart part examples).FailsPerItem := by
  rw [writePart]
  refine (OnDisk.failsPerItem_change _ _).bind fun _ => ?_
  split
  · refine (OnDisk.failsPerItem_change _ _).bind fun _ => ?_
    exact (OnDisk.failsPerItem_change _ _).bind fun _ => OnDisk.failsPerItem_pure _
  · exact OnDisk.failsPerItem_pure _

end LogCorpus
