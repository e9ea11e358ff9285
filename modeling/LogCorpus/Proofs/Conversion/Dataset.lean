/-
Writing the files of a dataset.

The file of a part can be written where its path leads to no directory.  It then
holds the lines of the examples, packed or not, and nothing else on the disk has
changed but the places of that part, which are no places of other parts.
-/
import LogCorpus.Proofs.Storage.Growth
import LogCorpus.Proofs.Storage.Gzip
import LogCorpus.Proofs.Training.Lines
import Mathlib.Data.List.Basic

namespace LogCorpus

namespace Part

/-- The names of the files of a part. -/
def names (part : Part) : List String :=
  [part.fileName, part.fileName ++ ".gz"]

theorem isEntryName_of_mem_names {part : Part} {name : String}
    (hname : name ∈ part.names) : IsEntryName name := by
  have hdecide : '/' ∉ name.toList ∧ name ≠ "" ∧ name ≠ "." ∧ name ≠ ".." := by
    simp only [names, List.mem_cons, List.not_mem_nil, or_false] at hname
    cases part <;> rcases hname with rfl | rfl <;> decide +kernel
  exact ⟨hdecide.1, hdecide.2.1, hdecide.2.2.1, hdecide.2.2.2⟩

theorem eq_of_mem_names {part other : Part} {name : String}
    (hpart : name ∈ part.names) (hother : name ∈ other.names) : part = other := by
  simp only [names, List.mem_cons, List.not_mem_nil, or_false] at hpart hother
  cases part <;> cases other <;> first
    | rfl
    | rcases hpart with rfl | rfl <;> exact absurd hother (by decide +kernel)

end Part

namespace Dataset

variable (dataset : Dataset)

/-- The paths at which something is written for a part, the plain file first. -/
def paths (part : Part) : List String :=
  dataset.plainPath part ::
    if dataset.compress then [packedPath (dataset.plainPath part)] else []

/-- The path of the file that holds a part in the end. -/
def finalPath (part : Part) : String :=
  if dataset.compress then packedPath (dataset.plainPath part)
  else dataset.plainPath part

/-- The bytes that the bytes of a file stand for. -/
def unpack? (bytes : List UInt8) : Option (List UInt8) :=
  if dataset.compress then gunzip? bytes else some bytes

/-- The text of the file that holds a part, unpacked if it is packed. -/
def text? (part : Part) (disk : Disk) : Option String := do
  let bytes ← (disk.read (dataset.finalPath part)).toOption
  ofUtf8? (← dataset.unpack? bytes)

/-- The lines of the file that holds a part. -/
def lines? (part : Part) (disk : Disk) : Option (List String) :=
  (dataset.text? part disk).bind textLines?

/-- The places at which something is written for a part. -/
def places (disk : Disk) (part : Part) : List Location :=
  (dataset.paths part).filterMap fun path => (disk.locate path).toOption

/-- The files of a part can be written. -/
def Writable (disk : Disk) (part : Part) : Prop :=
  ∀ path ∈ dataset.paths part, ∃ place, disk.CanWrite path place

/-- A part is stored: its file has this text, and nothing is at the other places
at which something is written for it. -/
structure Holds (disk : Disk) (part : Part) (text : String) : Prop where
  text?_eq : dataset.text? part disk = some text
  find?_eq_none : ∀ place ∈ dataset.places disk part,
    disk.locate (dataset.finalPath part) ≠ .ok place → disk.find? place = none

variable {dataset}

theorem exists_name_of_mem_paths {part : Part} {path : String}
    (hpath : path ∈ dataset.paths part) :
    ∃ name ∈ part.names, path = joinPath dataset.directory name := by
  rw [paths, List.mem_cons] at hpath
  rcases hpath with rfl | hpath
  · exact ⟨part.fileName, List.mem_cons_self, rfl⟩
  · have hpacked : path = packedPath (dataset.plainPath part) := by
      by_cases hcompress : dataset.compress
      · rw [if_pos hcompress] at hpath
        exact List.mem_singleton.mp hpath
      · rw [if_neg hcompress] at hpath
        exact absurd hpath List.not_mem_nil
    refine ⟨part.fileName ++ ".gz", List.mem_cons_of_mem _ List.mem_cons_self, ?_⟩
    rw [hpacked, packedPath, plainPath]
    exact joinPath_append (Part.isEntryName_of_mem_names List.mem_cons_self)

theorem finalPath_mem_paths (part : Part) :
    dataset.finalPath part ∈ dataset.paths part := by
  rw [finalPath, paths]
  by_cases hcompress : dataset.compress
  · rw [if_pos hcompress, if_pos hcompress]
    exact List.mem_cons_of_mem _ List.mem_cons_self
  · rw [if_neg hcompress, if_neg hcompress]
    exact List.mem_cons_self

theorem mem_places {disk : Disk} {part : Part} {place : Location} :
    place ∈ dataset.places disk part ↔
      ∃ path ∈ dataset.paths part, disk.locate path = .ok place := by
  have hlocate (path : String) :
      (disk.locate path).toOption = some place ↔ disk.locate path = .ok place := by
    cases disk.locate path <;> simp [Except.toOption]
  rw [places, List.mem_filterMap]
  simp only [hlocate]

/-- No place belongs to two parts. -/
theorem eq_of_mem_places {disk : Disk} {part other : Part} {place : Location}
    (hpart : place ∈ dataset.places disk part)
    (hother : place ∈ dataset.places disk other) : part = other := by
  obtain ⟨path, hpath, hlocate⟩ := mem_places.mp hpart
  obtain ⟨otherPath, hotherPath, hotherLocate⟩ := mem_places.mp hother
  obtain ⟨name, hname, rfl⟩ := exists_name_of_mem_paths hpath
  obtain ⟨otherName, hotherName, rfl⟩ := exists_name_of_mem_paths hotherPath
  have hlast := Disk.getLast?_of_locate_joinPath
    (Part.isEntryName_of_mem_names hname) hlocate
  have hotherLast := Disk.getLast?_of_locate_joinPath
    (Part.isEntryName_of_mem_names hotherName) hotherLocate
  rw [hlast] at hotherLast
  have hsame := FileName.ofText_injective (Option.some_inj.mp hotherLast)
  exact Part.eq_of_mem_names hname (hsame ▸ hotherName)

theorem Writable.ne_directory {disk : Disk} {part : Part}
    (hwritable : dataset.Writable disk part) :
    ∀ place ∈ dataset.places disk part, disk.find? place ≠ some .directory := by
  intro place hplace
  obtain ⟨path, hpath, hlocate⟩ := mem_places.mp hplace
  obtain ⟨other, hother, hdirectory⟩ := hwritable path hpath
  rw [hlocate] at hother
  injection hother with hsame
  rwa [hsame]

theorem Writable.of_agreesOff {disk other : Disk} {part : Part}
    {places : List Location} (hwritable : dataset.Writable disk part)
    (hagrees : Disk.AgreesOff places disk other) :
    dataset.Writable other part := by
  intro path hpath
  obtain ⟨place, hplace⟩ := hwritable path hpath
  exact ⟨place, hagrees.canWrite hplace⟩

theorem places_eq_of_agreesOff {disk other : Disk} {places : List Location}
    (hagrees : Disk.AgreesOff places disk other) (part : Part) :
    dataset.places other part = dataset.places disk part := by
  apply List.filterMap_congr
  intro path _
  cases hlocate : disk.locate path with
  | ok place => rw [hagrees.locate_eq_ok hlocate]
  | error fault =>
      cases hother : other.locate path with
      | error cause => rfl
      | ok place =>
          rw [hagrees.symm.locate_eq_ok hother] at hlocate
          cases hlocate

/-- The plain and the packed file of a part lie apart. -/
theorem packed_ne_plain {disk : Disk} {part : Part} {plain packed : Location}
    (hplain : disk.locate (dataset.plainPath part) = .ok plain)
    (hpacked : disk.locate (packedPath (dataset.plainPath part)) = .ok packed) :
    packed ≠ plain := by
  have hname : IsEntryName part.fileName :=
    Part.isEntryName_of_mem_names List.mem_cons_self
  have hpackedName : IsEntryName (part.fileName ++ ".gz") :=
    Part.isEntryName_of_mem_names
      (List.mem_cons_of_mem part.fileName List.mem_cons_self)
  rw [packedPath, plainPath, joinPath_append hname] at hpacked
  have hlast := Disk.getLast?_of_locate_joinPath hname hplain
  have hpackedLast := Disk.getLast?_of_locate_joinPath hpackedName hpacked
  rintro rfl
  rw [hlast] at hpackedLast
  have hsame := FileName.ofText_injective (Option.some_inj.mp hpackedLast)
  have hlength := congrArg String.length hsame
  rw [String.length_append] at hlength
  exact absurd hlength (by simp)

/-- A part is written plainly where its file can be. -/
theorem exists_run_writePart_of_plain {disk : Disk} {part : Part}
    (hcompress : ¬ dataset.compress = true) (hwritable : dataset.Writable disk part)
    (examples : List TrainingExample) :
    ∃ after : Disk,
      (dataset.writePart part examples).run disk =
          (.ok (dataset.finalPath part), after) ∧
        Disk.AgreesOff (dataset.places disk part) disk after ∧
        dataset.Holds after part (renderLines examples) := by
  obtain ⟨plain, hplain⟩ := hwritable (dataset.plainPath part) List.mem_cons_self
  have hmem : plain ∈ dataset.places disk part :=
    mem_places.mpr ⟨_, List.mem_cons_self, hplain.1⟩
  have hroot := Disk.ne_nil_of_find?_ne_directory hplain.2
  have hagrees := Disk.agreesOff_put hwritable.ne_directory hmem
    (.bytes (utf8 (renderLines examples)))
  refine ⟨_, ?_, hagrees, ?_, ?_⟩
  · rw [writePart, run_bind_of_ok
      (OnDisk.run_change_of_ok (Disk.write_eq_ok hplain _)),
      if_neg hcompress, finalPath, if_neg hcompress]
    rfl
  · rw [text?, finalPath, if_neg hcompress,
      Disk.read_eq_ok (hagrees.locate_eq_ok hplain.1)
        (Disk.find?_put_self disk _ hroot)]
    change (dataset.unpack? _ >>= ofUtf8?) = _
    rw [unpack?, if_neg hcompress]
    exact ofUtf8?_utf8 (renderLines examples)
  · intro place hplace hother
    obtain ⟨path, hpath, hlocate⟩ := mem_places.mp hplace
    rw [paths, if_neg hcompress, List.mem_singleton] at hpath
    rw [finalPath, if_neg hcompress, ← hpath] at hother
    exact absurd hlocate hother

/-- A part is written packed where both of its files can be. -/
theorem exists_run_writePart_of_compress {disk : Disk} {part : Part}
    (hcompress : dataset.compress = true) (hwritable : dataset.Writable disk part)
    (examples : List TrainingExample) :
    ∃ after : Disk,
      (dataset.writePart part examples).run disk =
          (.ok (dataset.finalPath part), after) ∧
        Disk.AgreesOff (dataset.places disk part) disk after ∧
        dataset.Holds after part (renderLines examples) := by
  let bytes := utf8 (renderLines examples)
  obtain ⟨plain, hplain⟩ := hwritable (dataset.plainPath part) List.mem_cons_self
  have hpackedPath : packedPath (dataset.plainPath part) ∈ dataset.paths part := by
    rw [paths, if_pos hcompress]
    exact List.mem_cons_of_mem _ List.mem_cons_self
  obtain ⟨packed, hpacked⟩ := hwritable _ hpackedPath
  have hplainMem : plain ∈ dataset.places disk part :=
    mem_places.mpr ⟨_, List.mem_cons_self, hplain.1⟩
  have hpackedMem : packed ∈ dataset.places disk part :=
    mem_places.mpr ⟨_, hpackedPath, hpacked.1⟩
  have hapart := packed_ne_plain hplain.1 hpacked.1
  -- the plain file is written, the packed one is written, the plain one goes
  let first := disk.put plain (.file (.bytes bytes))
  have hfirst : Disk.AgreesOff (dataset.places disk part) disk first :=
    Disk.agreesOff_put hwritable.ne_directory hplainMem _
  let second := first.put packed (.file (.bytes (gzip bytes)))
  have hsecond : Disk.AgreesOff (dataset.places disk part) first second :=
    Disk.agreesOff_put hfirst.right_ne_directory hpackedMem _
  let after : Disk := { second with entries := second.entries.erase plain }
  have hafter : Disk.AgreesOff (dataset.places disk part) second after :=
    Disk.agreesOff_erase hsecond.right_ne_directory hplainMem
  have hagrees := (hfirst.trans hsecond).trans hafter
  have hplainFile : second.find? plain = some (.file (.bytes bytes)) := by
    rw [Disk.find?_put_of_ne first _ (Ne.symm hapart), Disk.find?_put_self disk _
      (Disk.ne_nil_of_find?_ne_directory hplain.2)]
  have hpackedFile : after.find? packed = some (.file (.bytes (gzip bytes))) := by
    rw [Disk.find?_erase_of_ne second hapart, Disk.find?_put_self first _
      (Disk.ne_nil_of_find?_ne_directory hpacked.2)]
  refine ⟨after, ?_, hagrees, ?_, ?_⟩
  · rw [writePart, run_bind_of_ok
      (OnDisk.run_change_of_ok (Disk.write_eq_ok hplain _)),
      if_pos hcompress, run_bind_of_ok
      (OnDisk.run_change_of_ok (Disk.write_eq_ok (hfirst.canWrite hpacked) _)),
      run_bind_of_ok (OnDisk.run_change_of_ok (Disk.remove_eq_ok
        ((hfirst.trans hsecond).locate_eq_ok hplain.1) hplainFile)),
      finalPath, if_pos hcompress]
    rfl
  · rw [text?, finalPath, if_pos hcompress,
      Disk.read_eq_ok (hagrees.locate_eq_ok hpacked.1) hpackedFile]
    change (dataset.unpack? (gzip bytes) >>= ofUtf8?) = _
    rw [unpack?, if_pos hcompress, gunzip?_gzip]
    exact ofUtf8?_utf8 (renderLines examples)
  · intro place hplace hother
    obtain ⟨path, hpath, hlocate⟩ := mem_places.mp hplace
    rw [paths, if_pos hcompress, List.mem_cons, List.mem_singleton] at hpath
    rcases hpath with rfl | rfl
    · rw [hagrees.locate_eq_ok hplain.1] at hlocate
      injection hlocate with hsame
      rw [← hsame]
      exact Disk.find?_erase_self second
        (Disk.ne_nil_of_find?_ne_directory hplain.2)
    · rw [finalPath, if_pos hcompress] at hother
      exact absurd hlocate hother

/-- A part is written whenever its files can be.  The disk changes only at the
places of the part, and it holds the lines of the part in the end. -/
theorem Writable.exists_run_writePart {disk : Disk} {part : Part}
    (hwritable : dataset.Writable disk part) (examples : List TrainingExample) :
    ∃ after : Disk,
      (dataset.writePart part examples).run disk =
          (.ok (dataset.finalPath part), after) ∧
        Disk.AgreesOff (dataset.places disk part) disk after ∧
        dataset.Holds after part (renderLines examples) := by
  by_cases hcompress : dataset.compress
  · exact exists_run_writePart_of_compress hcompress hwritable examples
  · exact exists_run_writePart_of_plain hcompress hwritable examples

/-- A part that is written had files that could be. -/
theorem writable_of_run_writePart {disk after : Disk} {part : Part}
    {examples : List TrainingExample} {output : String}
    (hrun : (dataset.writePart part examples).run disk = (.ok output, after)) :
    dataset.Writable disk part := by
  rw [writePart] at hrun
  obtain ⟨_, first, hfirst, hrest⟩ := exists_of_run_bind_eq_ok hrun
  obtain ⟨plain, hplain, rfl⟩ :=
    Disk.canWrite_of_write_eq_ok (OnDisk.eq_ok_of_run_change hfirst)
  intro path hpath
  rw [paths, List.mem_cons] at hpath
  rcases hpath with rfl | hpath
  · exact ⟨plain, hplain⟩
  · by_cases hcompress : dataset.compress
    · rw [if_pos hcompress] at hpath hrest
      rw [List.mem_singleton.mp hpath]
      obtain ⟨_, second, hsecond, _⟩ := exists_of_run_bind_eq_ok hrest
      obtain ⟨packed, hpacked, _⟩ :=
        Disk.canWrite_of_write_eq_ok (OnDisk.eq_ok_of_run_change hsecond)
      have hdirectory : ∀ place ∈ [plain], disk.find? place ≠ some .directory :=
        fun place hplace => List.mem_singleton.mp hplace ▸ hplain.2
      have hagrees := Disk.agreesOff_put hdirectory List.mem_cons_self
        (.bytes (utf8 (renderLines examples)))
      exact ⟨packed, hagrees.symm.canWrite hpacked⟩
    · rw [if_neg hcompress] at hpath
      exact absurd hpath List.not_mem_nil

/-- Changes at the places of one part leave the files of the others. -/
theorem text?_of_agreesOff {disk after : Disk} {part other : Part}
    (hagrees : Disk.AgreesOff (dataset.places disk part) disk after)
    (hother : other ≠ part) : dataset.text? other after = dataset.text? other disk := by
  have hapart : ∀ place ∈ dataset.places disk part,
      disk.locate (dataset.finalPath other) ≠ .ok place := by
    intro place hplace hlocate
    exact hother (eq_of_mem_places
      (mem_places.mpr ⟨_, finalPath_mem_paths other, hlocate⟩) hplace)
  have hread : (after.read (dataset.finalPath other)).toOption =
      (disk.read (dataset.finalPath other)).toOption := by
    rcases hagrees.lookup_eq hapart with hsame | ⟨⟨fault, hleft⟩, cause, hright⟩
    · rw [Disk.read, Disk.read, hsame]
    · rw [Disk.read, Disk.read, hleft, hright]
      rfl
  rw [text?, text?, hread]

theorem Holds.of_agreesOff {disk after : Disk} {part other : Part} {text : String}
    (hholds : dataset.Holds disk other text)
    (hagrees : Disk.AgreesOff (dataset.places disk part) disk after)
    (hother : other ≠ part) : dataset.Holds after other text where
  text?_eq := by
    rw [text?_of_agreesOff hagrees hother]
    exact hholds.text?_eq
  find?_eq_none place hplace hfinal := by
    rw [places_eq_of_agreesOff hagrees] at hplace
    have hapart : place ∉ dataset.places disk part := fun hmem =>
      hother (eq_of_mem_places hplace hmem)
    rw [hagrees.find?_eq place hapart]
    exact hholds.find?_eq_none place hplace fun hlocate =>
      hfinal (hagrees.locate_eq_ok hlocate)

/-- The other places of a part are empty, as the disk before tells them. -/
theorem Holds.find?_eq_none_of_agreesOff {disk after : Disk} {part : Part}
    {text : String} {places : List Location} {place : Location}
    (hholds : dataset.Holds after part text)
    (hagrees : Disk.AgreesOff places disk after)
    (hplace : place ∈ dataset.places disk part)
    (hfinal : disk.locate (dataset.finalPath part) ≠ .ok place) :
    after.find? place = none := by
  apply hholds.find?_eq_none place
  · rw [places_eq_of_agreesOff hagrees]
    exact hplace
  · intro hlocate
    exact hfinal (hagrees.symm.locate_eq_ok hlocate)

end Dataset

end LogCorpus
