/-
The listing of a corpus and a walk of its tree.

The disk keeps its locations in order, and the listing takes them from there.  A walk
of the tree below the root, which sorts each directory for itself, comes to the same
records in the same order: both go up by the names that lead to the records.  What is
listed is what can be read of the names, so a listed path leads back to its record only
where the names are spelled like texts.
-/
import LogCorpus.Proofs.Corpus.Listing
import LogCorpus.Proofs.Storage.Tree

namespace LogCorpus

/-! ### Names of records -/

/-- An extension stands behind a dot that is not the first character. -/
theorem extension?_eq_some_iff {name ending : FileName} (hending : 0x2e ∉ ending.bytes)
    (hne : ending.bytes ≠ []) :
    extension? name = some ending ↔
      ∃ front, front ≠ [] ∧ name.bytes = front ++ 0x2e :: ending.bytes := by
  simp only [extension?]
  constructor
  · intro heq
    split at heq
    · cases heq
    · split at heq
      · cases heq
      · cases heq
      · next c d rest hrest =>
          have hdot := dropWhile_ne_eq 0x2e name.bytes.reverse
          rw [hrest, List.head?_cons, Option.some_inj] at hdot
          have hdot := hdot.resolve_left (List.cons_ne_nil _ _)
          have hsplit := List.takeWhile_append_dropWhile (p := (· ≠ 0x2e))
            (l := name.bytes.reverse)
          rw [hrest, hdot] at hsplit
          refine ⟨(d :: rest).reverse, by simp, ?_⟩
          rw [← List.reverse_reverse name.bytes, ← hsplit, ← Option.some_inj.mp heq]
          simp
  · rintro ⟨front, hfront, hname⟩
    have hdots : name ≠ ".." := by
      rintro rfl
      have hlength := congrArg List.length hname
      rw [List.length_append, List.length_cons] at hlength
      have hfront := List.length_pos_iff.mpr hfront
      have hending := List.length_pos_iff.mpr hne
      have htwo : (FileName.ofText "..").bytes.length = 2 := rfl
      omega
    have hmem : 0x2e ∉ ending.bytes.reverse := by
      rwa [List.mem_reverse]
    have hreverse : name.bytes.reverse = ending.bytes.reverse ++ 0x2e :: front.reverse := by
      rw [hname]
      simp
    rw [if_neg hdots, hreverse, dropWhile_ne_append hmem (.inr rfl),
      takeWhile_ne_append hmem (.inr rfl), List.reverse_reverse]
    cases hback : front.reverse with
    | nil => exact absurd (List.reverse_eq_nil_iff.mp hback) hfront
    | cons c rest => rfl

/-- A name is that of a record if its extension is the one of records. -/
theorem isRecordName_iff (name : FileName) :
    isRecordName name ↔ extension? name = some (FileName.ofText "proto") := by
  have hending : recordEnding.bytes = 0x2e :: (FileName.ofText "proto").bytes := by
    decide +kernel
  rw [extension?_eq_some_iff (by decide +kernel) (by decide +kernel), isRecordName,
    Bool.and_eq_true, List.isSuffixOf_iff_suffix, decide_eq_true_iff, hending]
  constructor
  · rintro ⟨⟨front, hname⟩, hlength⟩
    refine ⟨front, ?_, hname.symm⟩
    rintro rfl
    rw [← hname] at hlength
    exact Nat.lt_irrefl _ hlength
  · rintro ⟨front, hfront, hname⟩
    refine ⟨⟨front, hname.symm⟩, ?_⟩
    have hpos := List.length_pos_iff.mpr hfront
    rw [hname, List.length_append]
    omega

/-- Do the names lead to a record, if they lead to a file? -/
def IsRecordPath (names : Location) : Prop :=
  names.getLast?.bind extension? = some (FileName.ofText "proto")

instance (names : Location) : Decidable (IsRecordPath names) :=
  inferInstanceAs (Decidable (_ = _))

namespace FileTree

/-- The names that lead to the records of a tree, as a walk comes to them. -/
def records (tree : FileTree) : List Location :=
  (tree.walk.filter fun found =>
    found.2 ≠ .directory ∧ IsRecordPath found.1).map Prod.fst

/-- The names that lead to the directories in a tree, as a walk comes to them. -/
def directories (tree : FileTree) : List Location :=
  (tree.walk.filter fun found => found.2 = .directory ∧ found.1 ≠ []).map Prod.fst

namespace WellFormed

variable {tree : FileTree} (htree : tree.WellFormed)
include htree

theorem mem_records_iff {names : Location} :
    names ∈ tree.records ↔
      IsRecordPath names ∧ ∃ content, tree.find? names = some (.file content) := by
  simp only [records, List.mem_map, List.mem_filter, decide_eq_true_iff]
  constructor
  · rintro ⟨⟨found, entry⟩, ⟨hmem, hentry, hrecord⟩, rfl⟩
    cases entry with
    | directory => exact absurd rfl hentry
    | file content => exact ⟨hrecord, content, htree.mem_walk_iff.mp hmem⟩
  · rintro ⟨hrecord, content, hfind⟩
    exact ⟨(names, .file content), ⟨htree.mem_walk_iff.mpr hfind, nofun, hrecord⟩, rfl⟩

theorem mem_directories_iff {names : Location} :
    names ∈ tree.directories ↔ tree.find? names = some .directory ∧ names ≠ [] := by
  simp [directories, htree.mem_walk_iff]

theorem records_sorted :
    tree.records.Pairwise fun first second => compare first second = .lt :=
  List.pairwise_map.mpr (htree.walk_sorted.sublist List.filter_sublist)

theorem directories_sorted :
    tree.directories.Pairwise fun first second => compare first second = .lt :=
  List.pairwise_map.mpr (htree.walk_sorted.sublist List.filter_sublist)

end WellFormed

end FileTree

/-! ### The records on a disk -/

/-- Locations in order are the same if they have the same members. -/
theorem eq_of_mem_iff_of_sorted {first second : List Location}
    (hfirst : first.Pairwise fun names others => compare names others = .lt)
    (hsecond : second.Pairwise fun names others => compare names others = .lt)
    (hmem : ∀ names, names ∈ first ↔ names ∈ second) : first = second := by
  have : Std.Asymm fun names others : Location => compare names others = .lt :=
    ⟨fun _ _ => Std.OrientedCmp.not_lt_of_lt⟩
  exact List.Pairwise.eq_of_mem_iff hfirst hsecond hmem

namespace Corpus

section

variable {disk : Disk} {place : Location} (hplace : disk.find? place = some .directory)
include hplace

/-- Below a directory, records are files with the names of records. -/
theorem mem_recordsBelow_iff {names : Location} :
    names ∈ recordsBelow disk place ↔
      IsRecordPath names ∧ ∃ content, disk.find? (place ++ names) = some (.file content) := by
  have hfiles : names ∈ disk.filesBelow place ↔
      ∃ content, disk.entries[place ++ names]? = some (.file content) := by
    simp only [Disk.filesBelow, List.mem_map, List.mem_filter, decide_eq_true_iff]
    constructor
    · rintro ⟨⟨found, entry⟩, ⟨hmem, hentry⟩, rfl⟩
      cases entry with
      | directory => exact absurd rfl hentry
      | file content => exact ⟨content, Disk.mem_entriesBelow_iff.mp hmem⟩
    · rintro ⟨content, hfile⟩
      exact ⟨(names, .file content), ⟨Disk.mem_entriesBelow_iff.mpr hfile, nofun⟩, rfl⟩
  rw [recordsBelow, List.mem_filter, hfiles]
  rcases List.eq_nil_or_concat names with rfl | ⟨front, name, rfl⟩
  · -- the location itself is no record, whether it is the root of the disk or not
    rw [List.append_nil]
    refine iff_of_false ?_ fun hrecord => nomatch hrecord.1
    rintro ⟨⟨content, hfile⟩, hname⟩
    by_cases hroot : place = []
    · rw [hroot] at hname
      cases hname
    · rw [Disk.find?, if_neg hroot, hfile] at hplace
      cases hplace
  · have hne : place ++ front.concat name ≠ [] := by simp
    rw [Disk.find?, if_neg hne, and_comm, IsRecordPath, List.concat_eq_append,
      ← List.append_assoc, List.getLast?_concat, List.getLast?_concat, Option.any_some,
      Option.bind_some, isRecordName_iff]

variable {tree : FileTree} (htree : tree.WellFormed) (hholds : disk.Holds place tree)
include htree hholds

theorem recordsBelow_eq : recordsBelow disk place = tree.records := by
  apply eq_of_mem_iff_of_sorted (recordsBelow_sorted disk place) htree.records_sorted
  intro names
  rw [mem_recordsBelow_iff hplace, htree.mem_records_iff, hholds names]

omit hplace in
theorem directoriesBelow_eq : disk.directoriesBelow place = tree.directories := by
  apply eq_of_mem_iff_of_sorted (disk.directoriesBelow_sorted place) htree.directories_sorted
  intro names
  rw [htree.mem_directories_iff, ← hholds names]
  simp only [Disk.directoriesBelow, List.mem_map, List.mem_filter, decide_eq_true_iff,
    Prod.exists, Disk.mem_entriesBelow_iff]
  simp +contextual [Disk.find?]

end

theorem ne_nil_of_isRecordPath {names : Location} (hrecord : IsRecordPath names) :
    names ≠ [] := by
  rintro rfl
  cases hrecord

/-! ### Paths of records -/

section

variable {names : Location} (hnames : ∀ name ∈ names, IsFileName name)
  (hplain : ∀ name ∈ names, 0x5c ∉ name.bytes)
include hnames hplain

theorem isEntryName_and_plain :
    ∀ name ∈ names, IsEntryName name.text ∧ '\\' ∉ name.text.toList := by
  intro name hname
  refine ⟨(hnames name hname).isEntryName_text, fun hmem => hplain name hname ?_⟩
  exact FileName.mem_bytes_of_mem_text hmem (by decide)

theorem nul_not_mem_listedPath : '\x00' ∉ (listedPath names).toList := by
  rw [listedPath_eq (isEntryName_and_plain hnames hplain), String.toList_intercalate]
  intro hmem
  rcases eq_or_mem_of_mem_intercalate hmem with hslash | ⟨text, htext, hmem⟩
  · cases hslash
  · rw [List.map_map] at htext
    obtain ⟨name, hname, rfl⟩ := List.mem_map.mp htext
    exact (hnames name hname).no_nul (FileName.mem_bytes_of_mem_text hmem (by decide))

theorem not_isAbsolute_listedPath (hne : names ≠ []) :
    isAbsolute (listedPath names) = false := by
  rw [isAbsolute, decide_eq_false_iff_not]
  intro hhead
  obtain ⟨rest, hpath⟩ := List.head?_eq_some_iff.mp hhead
  have hparts := pathParts_listedPath (isEntryName_and_plain hnames hplain) hne
  rw [pathParts, hpath, segments, if_pos rfl, List.map_cons] at hparts
  obtain ⟨name, hname, hempty⟩ := List.mem_map.mp (hparts ▸ List.mem_cons_self)
  exact (hnames name hname).isEntryName_text.ne_empty hempty

/-- The listed path of something leads to it if its names are spelled like texts and the
path is not too long to be asked for.  All other paths lead to something else, if they
lead anywhere. -/
theorem lookup_resolve_iff {corpus : Corpus} {disk : Disk} {place : Location}
    {tree : FileTree} (hroot : disk.lookup corpus.root = .ok (place, .directory))
    (hholds : disk.Holds place tree) (htree : tree.WellFormed) (hne : names ≠ [])
    {entry : Entry} (hfind : tree.find? names = some entry) :
    disk.lookup (corpus.resolve (listedPath names)) = .ok (place ++ names, entry) ↔
      (∀ name ∈ names, name.IsText) ∧
        (corpus.resolve (listedPath names)).utf8ByteSize ≤ Disk.maxPathBytes := by
  have hshown := isEntryName_and_plain hnames hplain
  have hbase : ¬ corpus.root.isEmpty := by
    intro hempty
    rw [Disk.lookup, Disk.locate, Disk.start, if_pos hempty] at hroot
    cases hroot
  have hpath := not_isAbsolute_listedPath hnames hplain hne
  have hstart := Disk.start_joinPath hroot hpath (nul_not_mem_listedPath hnames hplain)
  rw [resolve]
  by_cases hlong : Disk.maxPathBytes < (joinPath corpus.root (listedPath names)).utf8ByteSize
  · rw [if_pos hlong] at hstart
    rw [Disk.lookup, Disk.locate, hstart]
    constructor
    · intro hlookup
      cases hlookup
    · intro hboth
      exact absurd hboth.2 (Nat.not_le_of_lt hlong)
  · rw [if_neg hlong] at hstart
    have hlocate := Disk.locate_joinPath_of_directory hbase hpath hstart hroot
    rw [pathParts_listedPath hshown hne] at hlocate
    constructor
    · intro hlookup
      have hsteps := (Disk.locate_of_lookup_eq_ok hlookup).1
      rw [hlocate] at hsteps
      have hsame := Disk.eq_append_of_foldlM_step
        (List.forall_mem_map.mpr fun name hname => (hshown name hname).1) hsteps
      rw [List.append_cancel_left_eq, List.map_map] at hsame
      refine ⟨fun name hname => ?_, Nat.le_of_not_lt hlong⟩
      exact List.map_inj_left.mp (hsame.symm.trans (List.map_id names).symm) name hname
    · rintro ⟨htext, _⟩
      have hsteps := hholds.foldlM_step htree [] htext hfind
      rw [List.append_nil] at hsteps
      exact Disk.lookup_eq_ok (hlocate.trans hsteps) (by rw [hholds, hfind])

end

/-- A corpus that is a tree of directories whose names hold no backslash is listed by a
walk of the tree.  The walk comes to each record once, in the order of the names, compared
by their bytes, and to nothing else.  It fails at the first directory that is too far
down to be read.  What is listed is what can be read of the names of each record, with
slashes between them.  Such a path leads to its record if its names are spelled like
texts and it is not too long to be asked for, and only then.  Where all names are spelled
like texts, no path is listed twice and the paths go up by their parts. -/
theorem graphFiles_of_tree {corpus : Corpus} {disk : Disk} {place : Location}
    {tree : FileTree} (hroot : disk.lookup corpus.root = .ok (place, .directory))
    (hholds : disk.Holds place tree) (htree : tree.WellFormed)
    (hplain : ∀ names entry, tree.find? names = some entry →
      ∀ name ∈ names, 0x5c ∉ name.bytes) :
    (∀ names, names ∈ tree.records ↔
      IsRecordPath names ∧ ∃ content, tree.find? names = some (.file content)) ∧
    (tree.records.Pairwise fun first second => compare first second = .lt) ∧
    (corpus.graphFiles disk =
      match tree.directories.find? corpus.isTooDeep with
      | some names =>
          .error (walkFault (lossyText (pathBelow corpus.root names)) .nameTooLong)
      | none =>
          .ok (tree.records.map fun names => "/".intercalate (names.map FileName.text))) ∧
    (∀ names ∈ tree.records, ∀ content, tree.find? names = some (.file content) →
      let path := corpus.resolve ("/".intercalate (names.map FileName.text))
      disk.lookup path = .ok (place ++ names, .file content) ↔
        (∀ name ∈ names, name.IsText) ∧ path.utf8ByteSize ≤ Disk.maxPathBytes) ∧
    ((∀ names ∈ tree.records, ∀ name ∈ names, name.IsText) →
      ∀ paths, corpus.graphFiles disk = .ok paths →
        paths.Nodup ∧
          (paths.map fun path => (pathParts path).map FileName.ofText) = tree.records) := by
  have hplace := (Disk.locate_of_lookup_eq_ok hroot).2
  have hshown {names : Location} (hmem : names ∈ tree.records) :
      ∀ name ∈ names, IsEntryName name.text ∧ '\\' ∉ name.text.toList := by
    obtain ⟨_, content, hfind⟩ := htree.mem_records_iff.mp hmem
    exact isEntryName_and_plain (htree.isFileName hfind) (hplain names _ hfind)
  have hne {names : Location} (hmem : names ∈ tree.records) : names ≠ [] :=
    ne_nil_of_isRecordPath (htree.mem_records_iff.mp hmem).1
  have hfiles : corpus.graphFiles disk =
      match tree.directories.find? corpus.isTooDeep with
      | some names =>
          .error (walkFault (lossyText (pathBelow corpus.root names)) .nameTooLong)
      | none =>
          .ok (tree.records.map fun names => "/".intercalate (names.map FileName.text)) := by
    have hlisted := List.map_congr_left fun names hmem => listedPath_eq (hshown hmem)
    cases hdeep : tree.directories.find? corpus.isTooDeep <;>
      simp only [graphFiles, hroot, directoriesBelow_eq htree hholds,
        recordsBelow_eq hplace htree hholds, hdeep, hlisted]
  refine ⟨fun names => htree.mem_records_iff, htree.records_sorted, hfiles, ?_, ?_⟩
  · intro names hmem content hfind
    have hlookup := lookup_resolve_iff (htree.isFileName hfind) (hplain names _ hfind)
      hroot hholds htree (hne hmem) hfind
    rwa [listedPath_eq (hshown hmem)] at hlookup
  · intro htext paths hpaths
    rw [hfiles] at hpaths
    split at hpaths
    · cases hpaths
    · injection hpaths with hpaths
      have hparts : (paths.map fun path => (pathParts path).map FileName.ofText) =
          tree.records := by
        rw [← hpaths, List.map_map]
        apply (List.map_congr_left fun names hmem => ?_).trans (List.map_id _)
        rw [Function.comp_apply, ← listedPath_eq (hshown hmem),
          pathParts_listedPath (hshown hmem) (hne hmem), List.map_map]
        exact (List.map_congr_left (htext names hmem)).trans (List.map_id _)
      have hnodup : tree.records.Nodup := by
        refine htree.records_sorted.imp fun {first second} hlt heq => ?_
        simp [heq] at hlt
      rw [← hparts] at hnodup
      exact ⟨hnodup.of_map, hparts⟩

/-- A directory that is visited before a record whose name it starts, a name with two
dots, one with nothing in front of its dot, and a directory with the name of a record. -/
theorem graphFiles_of_five_entries :
    let file : FileTree := .file (.bytes [])
    let inner : FileTree := .directory [("notes.txt", file), ("b.proto", file)]
    let tree : FileTree :=
      .directory [("x.y.proto", file), ("a.proto", file), (".proto", file),
        ("d.proto", .directory []), ("a", inner)]
    let disk := Disk.ofTree tree
    tree.WellFormed ∧
      Corpus.graphFiles ⟨"/"⟩ disk = .ok ["a/b.proto", "a.proto", "x.y.proto"] ∧
      disk.lookup (Corpus.resolve ⟨"/"⟩ "a/b.proto") =
        .ok (["a", "b.proto"], .file (.bytes [])) := by
  intro file inner tree disk
  have hfile : file.WellFormed := .file _
  have hempty : (FileTree.directory []).WellFormed := .directory nofun .nil nofun
  have hinner : inner.WellFormed :=
    .directory (by decide +kernel) (by decide +kernel) (by simp [hfile])
  have htree : tree.WellFormed :=
    .directory (by decide +kernel) (by decide +kernel) (by simp [hfile, hempty, hinner])
  have hplain : ∀ found ∈ tree.walk, ∀ name ∈ found.1, 0x5c ∉ name.bytes := by
    decide +kernel
  have hroot : disk.lookup (Corpus.mk "/").root = .ok ([], .directory) := by
    decide +kernel
  obtain ⟨_, _, hfiles, hlookup, _⟩ :=
    graphFiles_of_tree hroot (Disk.holds_ofTree htree rfl) htree
      fun names entry hfind => hplain (names, entry) (htree.mem_walk_iff.mpr hfind)
  refine ⟨htree, ?_, ?_⟩
  · rw [hfiles]
    decide +kernel
  · exact (hlookup ["a", "b.proto"] (by decide +kernel) _ rfl).mpr (by decide +kernel)

/-- Two records whose names are not spelled like texts.  Both are listed under one path,
which leads to neither. -/
theorem listed_alike_of_two_names :
    let file : FileTree := .file (.bytes [])
    let name (first : UInt8) : FileName := ⟨first :: utf8 ".proto"⟩
    let tree : FileTree := .directory [(name 0xfe, file), (name 0xff, file)]
    let disk := Disk.ofTree tree
    tree.WellFormed ∧ (∀ found ∈ tree.walk, ∀ name ∈ found.1, 0x5c ∉ name.bytes) ∧
      Corpus.graphFiles ⟨"/"⟩ disk = .ok ["\uFFFD.proto", "\uFFFD.proto"] ∧
      disk.lookup (Corpus.resolve ⟨"/"⟩ "\uFFFD.proto") = .error .notFound := by
  intro file name tree disk
  have hfile : file.WellFormed := .file _
  have htree : tree.WellFormed :=
    .directory (by decide +kernel) (by decide +kernel) (by simp [hfile])
  exact ⟨htree, by decide +kernel, by decide +kernel, by decide +kernel⟩

end Corpus

end LogCorpus
