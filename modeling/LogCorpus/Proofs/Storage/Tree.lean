/-
What a walk of a directory tree visits.

A walk visits everything in the tree once, and in the order of the names that lead
there, compared by their bytes: what is below one entry of a directory comes before
what is below a larger one, whatever follows the two names.
-/
import LogCorpus.Proofs.Lists
import LogCorpus.Proofs.Storage.Joining
import LogCorpus.Storage.Tree

namespace LogCorpus

/-- A name that a file can have on a disk. -/
structure IsFileName (name : FileName) : Prop where
  no_slash : 0x2f ∉ name.bytes
  no_nul : 0 ∉ name.bytes
  ne_empty : name ≠ ""
  ne_dot : name ≠ "."
  ne_dots : name ≠ ".."
  length_le : name.bytes.length ≤ Disk.maxNameBytes

instance (name : FileName) : Decidable (IsFileName name) :=
  decidable_of_iff
    ((0x2f ∉ name.bytes ∧ 0 ∉ name.bytes) ∧
      (name ≠ "" ∧ name ≠ "." ∧ name ≠ "..") ∧ name.bytes.length ≤ Disk.maxNameBytes)
    ⟨fun ⟨⟨hslash, hnul⟩, ⟨hempty, hdot, hdots⟩, hlength⟩ =>
        ⟨hslash, hnul, hempty, hdot, hdots, hlength⟩,
      fun hname => ⟨⟨hname.no_slash, hname.no_nul⟩,
        ⟨hname.ne_empty, hname.ne_dot, hname.ne_dots⟩, hname.length_le⟩⟩

/-- What is shown of a file's name is a name of an entry, too. -/
theorem IsFileName.isEntryName_text {name : FileName} (hname : IsFileName name) :
    IsEntryName name.text where
  no_slash hmem := hname.no_slash (FileName.mem_bytes_of_mem_text hmem (by decide))
  ne_empty hshown := hname.ne_empty (FileName.eq_ofText hshown (by decide))
  ne_dot hshown := hname.ne_dot (FileName.eq_ofText hshown (by decide))
  ne_dots hshown := hname.ne_dots (FileName.eq_ofText hshown (by decide))

/-- Locations are compared name by name. -/
theorem compare_cons_eq_lt_iff {name other : FileName} {rest others : Location} :
    compare (name :: rest) (other :: others) = .lt ↔
      compare name other = .lt ∨ name = other ∧ compare rest others = .lt := by
  rw [List.compare_eq_compareLex, List.compareLex_cons_cons, Ordering.then_eq_lt,
    ← List.compare_eq_compareLex, Std.LawfulEqCmp.compare_eq_iff_eq]

namespace FileTree

/-- The entries of a directory have different names, and such as files can have. -/
inductive WellFormed : FileTree → Prop where
  | file (content : Content) : WellFormed (.file content)
  | directory {entries : List (FileName × FileTree)}
      (names : ∀ entry ∈ entries, IsFileName entry.1)
      (distinct : (entries.map Prod.fst).Nodup)
      (trees : ∀ entry ∈ entries, WellFormed entry.2) : WellFormed (.directory entries)

/-! ### What names lead to -/

theorem findIn?_eq (entries : List (FileName × FileTree)) (name : FileName) (rest : Location) :
    findIn? entries name rest = (entries.lookup name).bind (·.find? rest) := by
  induction entries with
  | nil => rfl
  | cons head tail ih =>
      obtain ⟨other, tree⟩ := head
      rw [findIn?, ih]
      by_cases hname : name = other
      · subst hname
        rw [if_pos rfl, List.lookup_cons_self, Option.bind_some]
      · have hother : (name == other) = false := beq_eq_false_iff_ne.mpr hname
        rw [if_neg hname, List.lookup_cons, hother]

theorem find?_cons_eq_some_iff {entries : List (FileName × FileTree)}
    (hdistinct : (entries.map Prod.fst).Nodup) {name : FileName} {rest : Location}
    {entry : Entry} :
    (directory entries).find? (name :: rest) = some entry ↔
      ∃ tree, (name, tree) ∈ entries ∧ tree.find? rest = some entry := by
  rw [find?, findIn?_eq, Option.bind_eq_some_iff]
  simp only [lookup_eq_some_iff_mem hdistinct]

/-- What something lies below is a directory. -/
theorem find?_of_below {tree : FileTree} {above rest : Location} {name : FileName}
    {entry : Entry} (hfind : tree.find? (above ++ name :: rest) = some entry) :
    tree.find? above = some .directory := by
  induction above generalizing tree with
  | nil =>
      cases tree with
      | file content => cases hfind
      | directory entries => rfl
  | cons first above ih =>
      cases tree with
      | file content => cases hfind
      | directory entries =>
          rw [List.cons_append, find?, findIn?_eq, Option.bind_eq_some_iff] at hfind
          obtain ⟨inner, hinner, hrest⟩ := hfind
          rw [find?, findIn?_eq, hinner, Option.bind_some, ih hrest]

theorem WellFormed.isFileName {tree : FileTree} (htree : tree.WellFormed) {names : Location}
    {entry : Entry} (hfind : tree.find? names = some entry) :
    ∀ name ∈ names, IsFileName name := by
  induction htree generalizing names with
  | file content =>
      cases names with
      | nil => simp
      | cons name rest => cases hfind
  | directory hnames hdistinct _ ih =>
      cases names with
      | nil => simp
      | cons name rest =>
          obtain ⟨inner, hinner, hrest⟩ := (find?_cons_eq_some_iff hdistinct).mp hfind
          rw [List.forall_mem_cons]
          exact ⟨hnames _ hinner, ih _ hinner hrest⟩

/-! ### Walks -/

theorem walkEach_eq_map (entries : List (FileName × FileTree)) :
    walkEach entries = entries.map fun entry => (entry.1, entry.2.walk) := by
  induction entries with
  | nil => rfl
  | cons head tail ih => rw [walkEach, List.map_cons, ih]

/-- The walks of the entries of a directory, in their order. -/
def visits (entries : List (FileName × FileTree)) : List (FileName × List (Location × Entry)) :=
  (walkEach entries).insertionSort fun first second => (compare first.1 second.1).isLE

theorem walk_directory (entries : List (FileName × FileTree)) :
    (directory entries).walk = ([], .directory) :: (visits entries).flatMap within := by
  rw [walk, visits]

theorem mem_visits_iff {entries : List (FileName × FileTree)}
    {visit : FileName × List (Location × Entry)} :
    visit ∈ visits entries ↔ ∃ tree, (visit.1, tree) ∈ entries ∧ visit.2 = tree.walk := by
  rw [visits, List.mem_insertionSort, walkEach_eq_map, List.mem_map]
  constructor
  · rintro ⟨⟨name, tree⟩, hentry, rfl⟩
    exact ⟨tree, hentry, rfl⟩
  · rintro ⟨tree, hentry, hvisit⟩
    exact ⟨_, hentry, by rw [← hvisit]⟩

/-- A walk visits exactly what is in the tree. -/
theorem WellFormed.mem_walk_iff {tree : FileTree} (htree : tree.WellFormed)
    {names : Location} {entry : Entry} :
    (names, entry) ∈ tree.walk ↔ tree.find? names = some entry := by
  induction htree generalizing names with
  | file content => cases names <;> simp [walk, find?, eq_comm]
  | directory hnames hdistinct _ ih =>
      rw [walk_directory, List.mem_cons, List.mem_flatMap]
      cases names with
      | nil => simp [within, find?, eq_comm]
      | cons name rest =>
          rw [find?_cons_eq_some_iff hdistinct]
          constructor
          · rintro (hroot | ⟨⟨first, inside⟩, hvisit, hmem⟩)
            · cases hroot
            · obtain ⟨tree, hentry, hinside⟩ := mem_visits_iff.mp hvisit
              obtain ⟨found, hfound, heq⟩ := List.mem_map.mp hmem
              simp only [Prod.mk.injEq, List.cons.injEq] at heq
              obtain ⟨⟨rfl, rfl⟩, rfl⟩ := heq
              exact ⟨tree, hentry, (ih _ hentry).mp (hinside ▸ hfound)⟩
          · rintro ⟨tree, hentry, hfind⟩
            refine .inr ⟨(name, tree.walk), mem_visits_iff.mpr ⟨tree, hentry, rfl⟩, ?_⟩
            exact List.mem_map.mpr ⟨(rest, entry), (ih _ hentry).mpr hfind, rfl⟩

/-- The entries of a directory are visited in the order of their names. -/
theorem visits_sorted {entries : List (FileName × FileTree)}
    (hdistinct : (entries.map Prod.fst).Nodup) :
    (visits entries).Pairwise fun first second => compare first.1 second.1 = .lt := by
  have hsorted : (visits entries).Pairwise fun first second =>
      (compare first.1 second.1).isLE := by
    have : Std.Total fun first second : FileName × List (Location × Entry) =>
        (compare first.1 second.1).isLE :=
      ⟨fun first second => by
        have hswap : compare second.1 first.1 = (compare first.1 second.1).swap :=
          Std.OrientedOrd.eq_swap
        rw [hswap]
        cases compare first.1 second.1 <;> simp⟩
    have : IsTrans (FileName × List (Location × Entry)) fun first second =>
        (compare first.1 second.1).isLE := ⟨fun _ _ _ => Std.TransCmp.isLE_trans⟩
    exact List.pairwise_insertionSort _ _
  have hne : (visits entries).Pairwise fun first second => first.1 ≠ second.1 := by
    rw [← List.pairwise_map, ← List.nodup_iff_pairwise_ne]
    apply ((List.perm_insertionSort _ (walkEach entries)).map Prod.fst).nodup_iff.mpr
    rwa [walkEach_eq_map, List.map_map]
  refine (hsorted.and hne).imp fun ⟨hle, hne⟩ => ?_
  rcases Ordering.isLE_iff_eq_lt_or_eq_eq.mp hle with hlt | heq
  · exact hlt
  · exact absurd (Std.LawfulEqOrd.eq_of_compare heq) hne

/-- A walk goes up in the order of the names.  The induction is on the tree: below one
entry the order is that of the entry's own walk, and between two it is that of their names. -/
theorem WellFormed.walk_sorted {tree : FileTree} (htree : tree.WellFormed) :
    tree.walk.Pairwise fun first second => compare first.1 second.1 = .lt := by
  induction htree with
  | file content => exact List.pairwise_singleton _ _
  | directory _ hdistinct _ ih =>
      rw [walk_directory, List.pairwise_cons, List.pairwise_flatMap]
      refine ⟨?_, ?_, ?_⟩
      · intro found hfound
        obtain ⟨visit, _, hfound⟩ := List.mem_flatMap.mp hfound
        obtain ⟨inner, _, rfl⟩ := List.mem_map.mp hfound
        rfl
      · intro visit hvisit
        obtain ⟨tree, hentry, hinside⟩ := mem_visits_iff.mp hvisit
        rw [within, List.pairwise_map, hinside]
        refine (ih _ hentry).imp fun hlt => ?_
        exact compare_cons_eq_lt_iff.mpr (.inr ⟨rfl, hlt⟩)
      · refine (visits_sorted hdistinct).imp fun hlt => ?_
        intro found hfound other hother
        obtain ⟨inner, _, rfl⟩ := List.mem_map.mp hfound
        obtain ⟨outer, _, rfl⟩ := List.mem_map.mp hother
        exact compare_cons_eq_lt_iff.mpr (.inl hlt)

end FileTree

/-! ### Trees on disks -/

namespace Disk

/-- Is the tree what lies at the location and below it? -/
def Holds (disk : Disk) (place : Location) (tree : FileTree) : Prop :=
  ∀ names, disk.find? (place ++ names) = tree.find? names

/-- A disk with nothing but a tree. -/
def ofTree (tree : FileTree) : Disk :=
  { entries := .ofList tree.walk }

/-- Every directory can be all that is on a disk. -/
theorem holds_ofTree {tree : FileTree} (htree : tree.WellFormed)
    (hroot : tree.find? [] = some .directory) : (ofTree tree).Holds [] tree := by
  intro names
  have hdistinct : tree.walk.Pairwise fun first second =>
      ¬ compare first.1 second.1 = .eq := by
    refine htree.walk_sorted.imp fun {first second} hlt heq => ?_
    rw [hlt] at heq
    cases heq
  rw [List.nil_append, find?]
  by_cases hnil : names = []
  · rw [if_pos hnil, hnil, hroot]
  · rw [if_neg hnil, ofTree]
    cases hfind : tree.find? names with
    | some entry =>
        exact Std.TreeMap.getElem?_ofList_of_mem Std.ReflCmp.compare_self hdistinct
          (htree.mem_walk_iff.mpr hfind)
    | none =>
        apply Std.TreeMap.getElem?_ofList_of_contains_eq_false
        rw [Bool.eq_false_iff, Ne, List.contains_iff_mem, List.mem_map]
        rintro ⟨⟨_, entry⟩, hmem, rfl⟩
        have hsome := htree.mem_walk_iff.mp hmem
        rw [hfind] at hsome
        cases hsome

/-- Names that are spelled like texts lead through the directories of a tree to what they
lead to in it. -/
theorem Holds.foldlM_step {disk : Disk} {place : Location} {tree : FileTree}
    (hholds : disk.Holds place tree) (htree : tree.WellFormed) (front : Location)
    {names : Location} (htext : ∀ name ∈ names, name.IsText) {entry : Entry}
    (hfind : tree.find? (front ++ names) = some entry) :
    (names.map FileName.text).foldlM disk.step (place ++ front) =
      .ok (place ++ (front ++ names)) := by
  induction names generalizing front with
  | nil =>
      rw [List.append_nil]
      rfl
  | cons name rest ih =>
      have hdirectory : disk.find? (place ++ front) = some .directory := by
        rw [hholds, FileTree.find?_of_below hfind]
      have hname := htree.isFileName hfind name (by simp)
      have hshown := hname.isEntryName_text
      obtain ⟨htextName, htextRest⟩ := List.forall_mem_cons.mp htext
      have hsize : ¬ maxNameBytes < name.text.utf8ByteSize := by
        rw [← length_utf8]
        change ¬ maxNameBytes < (FileName.ofText name.text).bytes.length
        rw [htextName]
        exact Nat.not_lt_of_le hname.length_le
      have hfollow : follow (place ++ front) name.text = .ok (place ++ (front ++ [name])) := by
        rw [follow, if_neg (by simp [hshown.ne_empty, hshown.ne_dot]), if_neg hshown.ne_dots,
          if_neg hsize, htextName, List.append_assoc]
      have hsplit : front ++ name :: rest = (front ++ [name]) ++ rest := by simp
      rw [hsplit] at hfind ⊢
      rw [List.map_cons, List.foldlM_cons, step_eq_ok_iff.mpr ⟨hdirectory, hfollow⟩]
      exact ih (front ++ [name]) htextRest hfind

/-- Parts that are names lead down to names that are spelled like them. -/
theorem eq_append_of_foldlM_step {disk : Disk} {parts : List String}
    (hparts : ∀ part ∈ parts, IsEntryName part) {place found : Location}
    (hsteps : parts.foldlM disk.step place = .ok found) :
    found = place ++ parts.map FileName.ofText := by
  induction parts generalizing place with
  | nil =>
      injection hsteps with hfound
      simp [hfound]
  | cons part rest ih =>
      obtain ⟨hpart, hrest⟩ := List.forall_mem_cons.mp hparts
      rw [List.foldlM_cons] at hsteps
      obtain ⟨next, hnext, hdown⟩ := exists_of_bind_eq_ok hsteps
      rw [ih hrest hdown, follow_of_isEntryName hpart (step_eq_ok_iff.mp hnext).2]
      simp

/-- Where a path starts that is joined to a base which leads somewhere.  Only its length
can be in the way. -/
theorem start_joinPath {disk : Disk} {base path : String} {found : Location × Entry}
    (hbase : disk.lookup base = .ok found) (hpath : isAbsolute path = false)
    (hnul : '\x00' ∉ path.toList) :
    disk.start (joinPath base path) =
      if maxPathBytes < (joinPath base path).utf8ByteSize then .error .nameTooLong
      else .ok (if isAbsolute (joinPath base path) then [] else disk.working,
        pathParts (joinPath base path)) := by
  obtain ⟨hne, hplain⟩ : ¬ base.isEmpty ∧ '\x00' ∉ base.toList := by
    obtain ⟨_, hstart, _⟩ := exists_of_bind_eq_ok (locate_of_lookup_eq_ok hbase).1
    rw [start] at hstart
    split at hstart
    · cases hstart
    · next hne =>
        split at hstart
        · cases hstart
        · next hplain => exact ⟨hne, by simpa using hplain⟩
  obtain ⟨ending, hjoined⟩ : ∃ ending, joinPath base path = base ++ ending :=
    exists_joinPath_eq_append hpath
  have hempty : ¬ (joinPath base path).isEmpty := by
    rw [hjoined, String.isEmpty_iff, String.append_eq_empty_iff, ← String.isEmpty_iff]
    exact fun hboth => hne hboth.1
  have hnone : ¬ (joinPath base path).toList.contains '\x00' := by
    rw [joinPath, if_neg (Bool.eq_false_iff.mp hpath)]
    split <;> simp [hplain, hnul]
  rw [start, if_neg hempty, if_neg hnone]

end Disk

end LogCorpus
