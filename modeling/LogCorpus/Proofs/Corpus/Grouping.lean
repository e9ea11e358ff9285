/-
Groups in the order of detection.

Statements are detected record by record, in the order of the listing.  The statements
of one record lie together, so those of one path do wherever no other record is listed
under that path.  Groups take their records from any directory and from numbers that
are not next to each other, so the statements of a group lie together only where no
record of another group comes between.
-/
import LogCorpus.Proofs.Conversion.Run
import LogCorpus.Proofs.Corpus.Detection
import LogCorpus.Proofs.Corpus.Listing
import LogCorpus.Proofs.Distinct
import LogCorpus.Proofs.Partition.Boundaries
import Mathlib.Data.List.Flatten
import Mathlib.Data.List.Sort

namespace LogCorpus

/-! ### Lists made from blocks -/

/-- Items in a strict order are a sublist of any list in that order that has them. -/
theorem sublist_of_sorted {before : α → α → Prop}
    (hasymm : ∀ first second, before first second → ¬ before second first)
    {chosen items : List α} (hchosen : chosen.Pairwise before)
    (hitems : items.Pairwise before) (hmem : ∀ item ∈ chosen, item ∈ items) :
    chosen.Sublist items := by
  have hnodup : chosen.Nodup := by
    refine hchosen.imp fun {first second} hbefore heq => ?_
    rw [heq] at hbefore
    exact hasymm _ _ hbefore hbefore
  have : Std.Antisymm before :=
    ⟨fun _ _ hbefore hafter => absurd hafter (hasymm _ _ hbefore)⟩
  exact List.sublist_of_subperm_of_pairwise (hnodup.subperm hmem) hchosen hitems

/-- The items of blocks, each with its block. -/
def withBlocks (blocks : List β) (items : β → List α) : List (β × α) :=
  blocks.flatMap fun block => (items block).map fun item => (block, item)

theorem map_snd_withBlocks (blocks : List β) (items : β → List α) :
    (withBlocks blocks items).map Prod.snd = blocks.flatMap items := by
  simp [withBlocks, List.map_flatMap, Function.comp_def]

theorem mem_withBlocks {blocks : List β} {items : β → List α} {block : β} {item : α}
    (hmem : (block, item) ∈ withBlocks blocks items) :
    block ∈ blocks ∧ item ∈ items block := by
  simp only [withBlocks, List.mem_flatMap, List.mem_map, Prod.mk.injEq] at hmem
  obtain ⟨_, hblock, _, hitem, rfl, rfl⟩ := hmem
  exact ⟨hblock, hitem⟩

/-- Items of different blocks are in the order of their blocks. -/
theorem withBlocks_sorted {before : β → β → Prop} {blocks : List β}
    (hblocks : blocks.Pairwise before) (items : β → List α) :
    (withBlocks blocks items).Pairwise fun entry other =>
      entry.1 = other.1 ∨ before entry.1 other.1 := by
  rw [withBlocks, List.pairwise_flatMap]
  constructor
  · intro block _
    rw [List.pairwise_map]
    exact List.pairwise_of_forall fun _ _ => .inl rfl
  · refine hblocks.imp fun {block other} hbefore entry hentry entry' hentry' => ?_
    obtain ⟨_, _, rfl⟩ := List.mem_map.mp hentry
    obtain ⟨_, _, rfl⟩ := List.mem_map.mp hentry'
    exact .inr hbefore

/-- No block of another key that has items comes between two blocks of a key that
have some. -/
def NoneBetween (before : β → β → Prop) (blocks : List β) (items : β → List α)
    (blockKey : β → κ) (value : κ) : Prop :=
  ∀ first ∈ blocks, ∀ middle ∈ blocks, ∀ last ∈ blocks,
    items first ≠ [] → items middle ≠ [] → items last ≠ [] →
    before first middle → before middle last →
    blockKey first = value → blockKey last = value → blockKey middle = value

section

variable {before : β → β → Prop} {blocks : List β} (hblocks : blocks.Pairwise before)
  {items : β → List α} {key : α → κ} {blockKey : β → κ} {value : κ}
  (hkey : ∀ block ∈ blocks, ∀ item ∈ items block, key item = blockKey block)
include hblocks hkey

theorem NoneBetween.together
    (hbetween : NoneBetween before blocks items blockKey value) :
    Together key value (blocks.flatMap items) := by
  intro a b c htriple haKey hcKey
  rw [← map_snd_withBlocks] at htriple
  obtain ⟨⟨first, a⟩, ⟨middle, b⟩, ⟨last, c⟩, hentries, rfl, rfl, rfl⟩ :=
    exists_triple_of_sublist_map htriple
  obtain ⟨hfirst, ha⟩ := mem_withBlocks (hentries.subset (by simp) : (first, a) ∈ _)
  obtain ⟨hmiddle, hb⟩ := mem_withBlocks (hentries.subset (by simp) : (middle, b) ∈ _)
  obtain ⟨hlast, hc⟩ := mem_withBlocks (hentries.subset (by simp) : (last, c) ∈ _)
  rw [hkey first hfirst a ha] at haKey
  rw [hkey last hlast c hc] at hcKey
  rw [hkey middle hmiddle b hb]
  have hsorted := (withBlocks_sorted hblocks items).sublist hentries
  simp only [List.pairwise_cons, List.mem_cons, forall_eq_or_imp] at hsorted
  obtain ⟨⟨hfront, _⟩, ⟨hback, _⟩, _⟩ := hsorted
  rcases hfront with rfl | hbefore
  · exact haKey
  rcases hback with rfl | hafter
  · exact hcKey
  exact hbetween first hfirst middle hmiddle last hlast (List.ne_nil_of_mem ha)
    (List.ne_nil_of_mem hb) (List.ne_nil_of_mem hc) hbefore hafter haKey hcKey

/-- The items of a key lie together exactly if no block comes between those of the
key. -/
theorem together_flatMap_iff
    (hasymm : ∀ first second, before first second → ¬ before second first)
    (htrans : ∀ first second third, before first second → before second third →
      before first third) :
    Together key value (blocks.flatMap items) ↔
      NoneBetween before blocks items blockKey value := by
  refine ⟨fun hitems => ?_, NoneBetween.together hblocks hkey⟩
  intro first hfirst middle hmiddle last hlast hfirstItems hmiddleItems hlastItems
    hbefore hafter hfirstKey hlastKey
  obtain ⟨a, ha⟩ := List.exists_mem_of_ne_nil _ hfirstItems
  obtain ⟨b, hb⟩ := List.exists_mem_of_ne_nil _ hmiddleItems
  obtain ⟨c, hc⟩ := List.exists_mem_of_ne_nil _ hlastItems
  have hblockTriple : [first, middle, last].Sublist blocks := by
    apply sublist_of_sorted hasymm _ hblocks
    · simp [hfirst, hmiddle, hlast]
    · simp [hbefore, hafter, htrans _ _ _ hbefore hafter]
  have htriple : [a, b, c].Sublist (blocks.flatMap items) := by
    apply List.Sublist.trans _ (hblockTriple.flatMap items)
    simp only [List.flatMap_cons, List.flatMap_nil, List.append_nil]
    exact (List.singleton_sublist.mpr ha).append
      ((List.singleton_sublist.mpr hb).append (List.singleton_sublist.mpr hc))
  rw [← hkey middle hmiddle b hb]
  apply hitems a b c htriple
  · rw [hkey first hfirst a ha, hfirstKey]
  · rw [hkey last hlast c hc, hlastKey]

end

/-! ### Runs -/

/-- The occurrences of a run are in the order in which they are given. -/
theorem selectOccurrences_sublist (config : Configuration)
    (occurrences : List Occurrence) :
    (selectOccurrences config occurrences).Sublist occurrences := by
  rw [selectOccurrences]
  cases config.limit with
  | none =>
      split
      · exact firstOfEach_sublist _ _
      · exact List.Sublist.refl _
  | some limit =>
      split
      · exact (firstOfEach_sublist _ _).trans (List.take_sublist limit occurrences)
      · exact List.take_sublist limit occurrences

/-- A run has occurrences that lay together in one of its parts, if their key tells
groups apart. -/
theorem Together.key_ne_of_planRun {config : Configuration} {source : WordSource σ}
    {state : σ} {corpus : Corpus} {occurrences : List Occurrence} {disk : Disk}
    {statistics : Statistics} {parts : Partition Occurrence}
    (hplan : planRun config source state corpus occurrences disk =
      .ok (statistics, parts))
    {key : Occurrence → κ}
    (hkey : ∀ first second, key first = key second → first.group = second.group)
    {value : κ} (hoccurrences : Together key value occurrences)
    {part other : Part} (hne : part ≠ other) {first second : Occurrence}
    (hfirst : first ∈ parts.items part) (hsecond : second ∈ parts.items other) :
    key first = value → key second ≠ value := by
  rw [planRun_eq_map] at hplan
  obtain ⟨split, hsplit, heq⟩ := exists_of_map_eq_ok hplan
  injection heq with _ hparts
  have hsplit := splitByPosition_of_splitRun hsplit
  have hselected : Together key value (split.train ++ (split.validation ++ split.test)) := by
    rw [append_of_splitByPosition_eq_ok hsplit]
    exact hoccurrences.of_sublist (selectOccurrences_sublist config occurrences)
  have hitems (part : Part) : (parts.items part).Perm (split.items part) := by
    rw [← hparts]
    exact split.items_shuffle_perm source state part
  exact ((separated_of_partitionAt_eq_ok hsplit).of_key_eq hkey).key_ne hselected hne
    ((hitems part).mem_iff.mp hfirst) ((hitems other).mem_iff.mp hsecond)

/-! ### Corpora -/

namespace Corpus

/-- The statements that are found where the path leads under which the record with these
names is listed. -/
def statementsAt (corpus : Corpus) (disk : Disk) (names : Location) :
    List Occurrence :=
  corpus.statementsOf disk (listedPath names)

theorem graphPath_of_mem_statementsAt {corpus : Corpus} {disk : Disk}
    {names : Location} {occurrence : Occurrence}
    (hmem : occurrence ∈ corpus.statementsAt disk names) :
    occurrence.graphPath = listedPath names := by
  obtain ⟨graph, _, hstatement⟩ := mem_statementsOf_iff.mp hmem
  exact (Graph.mem_statements_iff.mp hstatement).1

theorem exists_place_of_detect_eq_ok {corpus : Corpus} {disk : Disk}
    {found : List Occurrence} (hdetect : corpus.detect disk = .ok found) :
    ∃ place entry, disk.lookup corpus.root = .ok (place, entry) ∧
      found = (recordsBelow disk place).flatMap (corpus.statementsAt disk) := by
  rw [detect] at hdetect
  obtain ⟨paths, hpaths, rfl⟩ := exists_of_map_eq_ok hdetect
  obtain ⟨place, entry, hlookup, _, rfl⟩ := graphFiles_eq_ok_iff.mp hpaths
  refine ⟨place, entry, hlookup, ?_⟩
  rw [List.flatMap_map]
  rfl

/-- Statements of one path, or of one group, are detected together exactly if no
record with statements of another comes between those records. -/
theorem together_detect_iff {corpus : Corpus} {disk : Disk} {place : Location}
    (key : String → String) (value : String) :
    Together (fun occurrence => key occurrence.graphPath) value
        ((recordsBelow disk place).flatMap (corpus.statementsAt disk)) ↔
      NoneBetween (fun first second => compare first second = .lt)
        (recordsBelow disk place) (corpus.statementsAt disk)
        (fun names => key (listedPath names)) value := by
  apply together_flatMap_iff (recordsBelow_sorted disk place)
  · intro names _ occurrence hoccurrence
    rw [graphPath_of_mem_statementsAt hoccurrence]
  · intro first second hbefore hafter
    exact Std.OrientedCmp.not_lt_of_lt hbefore hafter
  · intro first second third hbefore hafter
    exact Std.TransCmp.lt_trans hbefore hafter

/-- Records are visited in the order of the names that lead to them, and the statements
of each are those found where its listed path leads.  Statements of one path lie together
where all names are spelled like texts and have no backslash, those of one group exactly
if no record with statements of another group comes between records of the group.  A run
over the statements, or over the rows of their index, has statements of one path or group
that lie together in one of its parts. -/
theorem detect_orders_groups {corpus : Corpus} {disk : Disk}
    {found : List Occurrence} (hdetect : corpus.detect disk = .ok found) :
    ∃ place entry, disk.lookup corpus.root = .ok (place, entry) ∧
      found = (recordsBelow disk place).flatMap (corpus.statementsAt disk) ∧
      ((recordsBelow disk place).Pairwise fun first second =>
        compare first second = .lt) ∧
      (∀ group, Together Occurrence.group group found ↔
        NoneBetween (fun first second => compare first second = .lt)
          (recordsBelow disk place) (corpus.statementsAt disk)
          (fun names => groupKey (listedPath names)) group) ∧
      ((∀ names ∈ recordsBelow disk place, ∀ name ∈ names,
          name.IsText ∧ IsEntryName name.text ∧ '\\' ∉ name.text.toList) →
        ∀ path, Together Occurrence.graphPath path found) ∧
      ∀ rows, rows = found ∨ rows = found.map Occurrence.indexed →
        ∀ {σ : Type} (config : Configuration) (source : WordSource σ) (state : σ)
          (target : Corpus) (later : Disk) (statistics : Statistics)
          (parts : Partition Occurrence),
        planRun config source state target rows later = .ok (statistics, parts) →
        ∀ part other, part ≠ other →
        ∀ first ∈ parts.items part, ∀ second ∈ parts.items other,
          (Together Occurrence.graphPath first.graphPath found →
            second.graphPath ≠ first.graphPath) ∧
          (Together Occurrence.group first.group found →
            second.group ≠ first.group) := by
  obtain ⟨place, entry, hlookup, rfl⟩ := exists_place_of_detect_eq_ok hdetect
  refine ⟨place, entry, hlookup, rfl, recordsBelow_sorted disk place,
    fun group => together_detect_iff groupKey group, ?_, ?_⟩
  · intro hnames path
    refine (together_detect_iff id path).mpr ?_
    intro first hfirst middle hmiddle last hlast _ _ _ hbefore hafter hfirstPath hlastPath
    -- the names are read off the path, so it is that of one record
    have hnamesOf {names : Location} (hmem : names ∈ recordsBelow disk place) :
        (namesOf (listedPath names)).map FileName.ofText = names := by
      rw [namesOf_listedPath fun name hname => (hnames names hmem name hname).2, List.map_map]
      refine (List.map_congr_left fun name hname => ?_).trans (List.map_id _)
      exact (hnames names hmem name hname).1
    have hsame : first = last := by
      rw [← hnamesOf hfirst, ← hnamesOf hlast]
      exact congrArg _ (congrArg namesOf (hfirstPath.trans hlastPath.symm))
    rw [hsame] at hbefore
    exact absurd hbefore (Std.OrientedCmp.not_lt_of_lt hafter)
  · intro rows hrows σ config source state target later statistics parts hplan
      part other hne first hfirst second hsecond
    -- a row has the path of the statement that it was written from
    have htogether {key : Occurrence → String} {value : String}
        (hindexed : key ∘ Occurrence.indexed = key)
        (hfound : Together key value
          ((recordsBelow disk place).flatMap (corpus.statementsAt disk))) :
        Together key value rows := by
      rcases hrows with rfl | rfl
      · exact hfound
      · apply Together.map
        rwa [hindexed]
    constructor
    · intro hfound
      exact Together.key_ne_of_planRun hplan (fun _ _ hpath => congrArg groupKey hpath)
        (htogether rfl hfound) hne hfirst hsecond rfl
    · intro hfound
      exact Together.key_ne_of_planRun hplan (fun _ _ hgroup => hgroup)
        (htogether rfl hfound) hne hfirst hsecond rfl

/-- Two records of a group next to each other, with the cut between them. -/
theorem detect_orders_groups_of_siblings :
    let word (id : UInt64) (contents : String) : Node :=
      ⟨id, .token, contents, 3, 3, 0, 1⟩
    let graph : Graph :=
      ⟨"A.java", [word 1 "log", word 2 "DOT", word 3 "info", word 4 "LPAREN",
        word 5 "m", word 6 "RPAREN", word 7 "SEMI"], []⟩
    let record : Entry := .file (.bytes graph.toRecord)
    let entries : List (Location × Entry) := [(["c"], .directory),
      (["c", "Bar.proto"], record), (["c", "Foo1.proto"], record),
      (["c", "Foo2.proto"], record), (["c", "Goo.proto"], record)]
    let disk : Disk := { entries := .ofList entries }
    let call (path : String) : Occurrence := ⟨path, .info, "m", some 1, some 3⟩
    let found : List Occurrence :=
      [call "Bar.proto", call "Foo1.proto", call "Foo2.proto", call "Goo.proto"]
    let config : Configuration := { trainFraction := 0.5, validationFraction := 0.5 }
    let source : WordSource Unit := fun state => (0, state)
    let corpus : Corpus := ⟨"/c"⟩
    let parts : Partition Occurrence :=
      ⟨[call "Foo1.proto", call "Foo2.proto", call "Bar.proto"], [], [call "Goo.proto"]⟩
    corpus.detect disk = .ok found ∧ Contiguous Occurrence.group found ∧
      planRun config source () corpus found disk =
        .ok (.ofOccurrences found, parts) ∧
      ∀ part other, part ≠ other → ∀ first ∈ parts.items part,
        ∀ second ∈ parts.items other, second.group ≠ first.group := by
  intro word graph record entries disk call found config source corpus parts
  have hdetect : corpus.detect disk = .ok found := by
    decide +kernel
  have hfound : Contiguous Occurrence.group found := by
    decide +kernel
  have hplan : planRun config source () corpus found disk =
      .ok (.ofOccurrences found, parts) := by
    decide +kernel
  obtain ⟨_, _, _, _, _, _, _, hparts⟩ := detect_orders_groups hdetect
  refine ⟨hdetect, hfound, hplan, fun part other hne first hfirst second hsecond => ?_⟩
  exact (hparts found (.inl rfl) config source () corpus disk _ parts hplan part other
    hne first hfirst second hsecond).2 (hfound.together first.group)

/-- A name between those of two records of a group.  Their statements do not lie
together, and a run with the default configuration has them in two parts. -/
theorem siblings_apart_around_name :
    let word (id : UInt64) (contents : String) : Node :=
      ⟨id, .token, contents, 3, 3, 0, 1⟩
    let graph : Graph :=
      ⟨"A.java", [word 1 "log", word 2 "DOT", word 3 "info", word 4 "LPAREN",
        word 5 "m", word 6 "RPAREN", word 7 "SEMI"], []⟩
    let record : Entry := .file (.bytes graph.toRecord)
    let entries : List (Location × Entry) := [(["c"], .directory),
      (["c", "Foo1.proto"], record), (["c", "Foo1a.proto"], record),
      (["c", "Foo2.proto"], record)]
    let disk : Disk := { entries := .ofList entries }
    let call (path : String) : Occurrence := ⟨path, .info, "m", some 1, some 3⟩
    let found : List Occurrence :=
      [call "Foo1.proto", call "Foo1a.proto", call "Foo2.proto"]
    let source : WordSource Unit := fun state => (0, state)
    let corpus : Corpus := ⟨"/c"⟩
    let parts : Partition Occurrence :=
      ⟨[call "Foo1a.proto", call "Foo1.proto"], [], [call "Foo2.proto"]⟩
    corpus.detect disk = .ok found ∧ ¬ Contiguous Occurrence.group found ∧
      planRun {} source () corpus found disk = .ok (.ofOccurrences found, parts) ∧
      call "Foo1.proto" ∈ parts.items .train ∧ call "Foo2.proto" ∈ parts.items .test ∧
      (call "Foo1.proto").group = (call "Foo2.proto").group := by
  intro word graph record entries disk call found source corpus parts
  exact ⟨by decide +kernel, by decide +kernel, by decide +kernel, by decide +kernel,
    by decide +kernel, by decide +kernel⟩

end Corpus

end LogCorpus
