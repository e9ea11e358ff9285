/-
Computations on a disk.

A computation may look at a disk, change it and fail.  What was changed before a
failure stays changed, and the failure of one step can be kept as a value so
that the next steps still run.
-/
import LogCorpus.Fault
import LogCorpus.Storage.Disk

namespace LogCorpus

/-- A disk fault as a fault of the library, with the action that it stopped. -/
def DiskFault.toFault (action : String) (cause : DiskFault) : Fault :=
  .io s!"{action}: {cause.message}"

/-- A computation that may change a disk and may fail. -/
abbrev OnDisk := ExceptT Fault (StateM Disk)

namespace OnDisk

/-- Look at the disk without changing it. -/
def look (query : Disk → Except Fault α) : OnDisk α :=
  ExceptT.mk fun disk => (query disk, disk)

theorem run_look (query : Disk → Except Fault α) (disk : Disk) :
    (look query).run disk = (query disk, disk) := rfl

/-- Change the disk.  If the operation fails, the disk stays as it is. -/
def change (action : String) (operation : Disk → Except DiskFault Disk) :
    OnDisk Unit :=
  ExceptT.mk fun disk =>
    match operation disk with
    | .ok changed => (.ok (), changed)
    | .error cause => (.error (cause.toFault action), disk)

/-- Make a directory and those on the way to it. -/
def makeDirectories (path : String) : OnDisk Unit :=
  ExceptT.mk fun disk =>
    let (outcome, changed) := disk.makeDirectories path
    (outcome.mapError (DiskFault.toFault s!"Cannot create '{path}'"), changed)

/-- Run a computation and keep its outcome, whether it failed or not. -/
def attempt (computation : OnDisk α) : OnDisk (Except Fault α) :=
  ExceptT.mk fun disk =>
    let (outcome, changed) := computation.run disk
    (.ok outcome, changed)

theorem run_attempt (computation : OnDisk α) (disk : Disk) :
    (attempt computation).run disk =
      (.ok (computation.run disk).1, (computation.run disk).2) := rfl

end OnDisk

end LogCorpus
