/-
Severities that stay in the labels.

A dotted text without blanks reveals a severity if one of its segments, written in
one case, names a level for the detection of statements.  Excision knows such a text
by the level words only.  The detection knows more names: a text that reveals its
severity by none but these is overlooked, and it stays in the labels of the example.
-/
import LogCorpus.Corpus.Basic
import LogCorpus.Proofs.Conversion.Converter
import LogCorpus.Proofs.Corpus.Storage
import LogCorpus.Proofs.Statement.Remainder
import LogCorpus.Proofs.Training.Projection

namespace LogCorpus

/-- The names of levels that are no level words: those of the formatting methods, and
of the finer levels of the standard library's loggers. -/
def overlookedLevels : List String :=
  ["tracef", "tracev", "debugf", "debugv", "infof", "infov", "warnf", "warnv",
    "errorf", "errorv", "fatalf", "fatalv", "config", "fine", "finer", "finest"]

/-- The name that a segment has when case does not count. -/
def levelName (segment : List Char) : String :=
  String.ofList (segment.map Char.toLower)

/-- A dotted text without blanks reveals a severity by one of its segments. -/
structure Reveals (contents : String) (segment : List Char) : Prop where
  dotted : '.' ∈ contents.toList
  not_isBlank : ¬ contents.toList.any isBlank
  mem_segments : segment ∈ segments '.' contents.toList
  single_case : segment = segment.map Char.toLower ∨ segment = segment.map Char.toUpper
  isSome_severity : (severityOfLevel? (String.ofList segment)).isSome

/-- A level is a level word or an overlooked one. -/
theorem isSome_severityOfLevel?_iff (segment : List Char) :
    (severityOfLevel? (String.ofList segment)).isSome ↔
      levelName segment ∈ levelWords ∨ levelName segment ∈ overlookedLevels := by
  rw [severityOfLevel?, levelName, String.toList_ofList]
  split <;> simp_all [levelWords, overlookedLevels]

theorem not_mem_overlookedLevels {name : String} (hname : name ∈ levelWords) :
    name ∉ overlookedLevels := by
  revert name
  decide

/-- The segments that are looked for are those that name a level word. -/
theorem isLevelSegment_iff (segment : List Char) :
    isLevelSegment segment ↔
      (segment = segment.map Char.toLower ∨ segment = segment.map Char.toUpper) ∧
        levelName segment ∈ levelWords := by
  simp [isLevelSegment, levelName]

/-- A text is blanked if a segment reveals a severity by a name that is not
overlooked. -/
theorem isLevelAccess_iff (contents : String) :
    isLevelAccess contents ↔
      ∃ segment, Reveals contents segment ∧ levelName segment ∉ overlookedLevels := by
  simp only [isLevelAccess, Bool.and_eq_true, List.contains_iff_mem,
    Bool.not_eq_eq_eq_not, Bool.not_true, ← Bool.not_eq_true,
    List.any_eq_true (p := isLevelSegment), isLevelSegment_iff]
  constructor
  · rintro ⟨⟨hdotted, hblank⟩, segment, hsegment, hcase, hword⟩
    refine ⟨segment, ⟨hdotted, hblank, hsegment, hcase, ?_⟩,
      not_mem_overlookedLevels hword⟩
    exact (isSome_severityOfLevel?_iff segment).mpr (.inl hword)
  · rintro ⟨segment, hreveals, hknown⟩
    refine ⟨⟨hreveals.dotted, hreveals.not_isBlank⟩, segment, hreveals.mem_segments,
      hreveals.single_case, ?_⟩
    exact ((isSome_severityOfLevel?_iff segment).mp hreveals.isSome_severity).resolve_right
      hknown

theorem Reveals.ne_blank {contents : String} {segment : List Char}
    (hreveals : Reveals contents segment) : contents ≠ "" := by
  rintro rfl
  exact absurd hreveals.dotted List.not_mem_nil

/-- A node keeps its contents or is blank. -/
theorem Node.contents_sanitize_eq_iff {node : Node} {contents : String}
    (hcontents : contents ≠ "") :
    node.sanitize.contents = contents ↔
      node.contents = contents ∧ ¬ isLevelAccess contents := by
  rw [sanitize, leaks]
  split
  · next hleaks =>
      constructor
      · exact fun hblank => absurd hblank.symm hcontents
      · rintro ⟨rfl, hkept⟩
        exact absurd hleaks hkept
  · next hkept =>
      constructor
      · rintro rfl
        exact ⟨rfl, hkept⟩
      · exact And.left

/-- The labels of an example that has come out of an excision. -/
theorem Converter.exists_nodeLabels_eq {converter : Converter} {disk : Disk}
    {occurrence : Occurrence} {root : UInt64} {training : TrainingExample}
    (hroot : occurrence.root = some root)
    (hconvert : converter.convert disk occurrence = .ok training) :
    ∃ graph span, converter.corpus.load occurrence.graphPath disk = .ok graph ∧
      graph.locate root = .ok span ∧
      training.nodeLabels =
        (graph.nodes.take span.base).map (fun node => node.sanitize.contents) ++
          "" :: (graph.nodes.drop span.stop).map fun node => node.sanitize.contents := by
  obtain ⟨graph, after, hload, hexcised, hproject⟩ := exists_of_convert_eq_ok hconvert
  rw [excised, hroot] at hexcised
  obtain ⟨excision, hexcise, rfl⟩ := exists_of_map_eq_ok hexcised
  obtain ⟨span, hlocate, hdone⟩ := exists_of_bind_eq_ok hexcise
  refine ⟨graph, span, hload, hlocate, ?_⟩
  rw [Projector.nodeLabels_of_project hproject, ← Except.ok.inj hdone]
  exact (Corpus.wellFormed_of_load hload).contents_excised
    (Graph.isStatement_of_locate hlocate)

/-- A text that reveals a severity is a label of an example just when a node outside
the statement holds it and each name by which it does so is overlooked. -/
theorem Converter.mem_nodeLabels_iff_of_reveals {converter : Converter} {disk : Disk}
    {occurrence : Occurrence} {root : UInt64} {training : TrainingExample}
    (hroot : occurrence.root = some root)
    (hconvert : converter.convert disk occurrence = .ok training) :
    ∃ graph span, converter.corpus.load occurrence.graphPath disk = .ok graph ∧
      graph.locate root = .ok span ∧
      ∀ label, (∃ segment, Reveals label segment) →
        (label ∈ training.nodeLabels ↔
          (∃ node ∈ graph.nodes.take span.base ++ graph.nodes.drop span.stop,
              node.contents = label) ∧
            ∀ segment, Reveals label segment →
              levelName segment ∈ overlookedLevels) := by
  obtain ⟨graph, span, hload, hlocate, hlabels⟩ := exists_nodeLabels_eq hroot hconvert
  refine ⟨graph, span, hload, hlocate, ?_⟩
  rintro label ⟨segment, hreveals⟩
  have hkept : ¬ isLevelAccess label ↔
      ∀ segment, Reveals label segment → levelName segment ∈ overlookedLevels := by
    rw [isLevelAccess_iff]
    push Not
    rfl
  have hblank := hreveals.ne_blank
  rw [hlabels, ← hkept]
  simp only [List.mem_append, List.mem_cons, List.mem_map, hblank, false_or,
    Node.contents_sanitize_eq_iff hblank, or_and_right, exists_or, ← and_assoc,
    exists_and_right]

/-- Of two names in front of a call, one reveals its severity by a level word and is
blank in the example, the other by an overlooked level. -/
theorem Converter.mem_nodeLabels_iff_of_two_names :
    let word (id : UInt64) (contents : String) : Node :=
      ⟨id, .token, contents, 3, 3, 0, 1⟩
    let graph : Graph :=
      ⟨"A.java", [word 1 "org.slf4j.Logger.info", word 2 "org.jboss.logging.Logger.infof",
        word 3 "log", word 4 ";"], []⟩
    let entries : List (Location × Entry) := [(["corpus"], .directory),
      (["corpus", "A.proto"], .file (.bytes graph.toRecord))]
    let disk : Disk := { entries := .ofList entries }
    let call : Occurrence := ⟨"A.proto", .info, "", some 3, none⟩
    let converter : Converter := ⟨⟨"/corpus"⟩, ⟨.severity, wordTokens⟩, 4⟩
    ∃ training, converter.convert disk call = .ok training ∧
      "org.slf4j.Logger.info" ∉ training.nodeLabels ∧
      ∀ segment, Reveals "org.jboss.logging.Logger.infof" segment →
        levelName segment ∈ overlookedLevels := by
  intro word graph entries disk call converter
  let training : TrainingExample :=
    ⟨["", "org.jboss.logging.Logger.infof", ""], [], [], ["info"], 2⟩
  have hconvert : converter.convert disk call = .ok training := by
    decide +kernel
  obtain ⟨_, _, _, _, hlabels⟩ := mem_nodeLabels_iff_of_reveals rfl hconvert
  have hinfo : Reveals "org.slf4j.Logger.info" "info".toList := by
    constructor <;> decide +kernel
  have hinfof : Reveals "org.jboss.logging.Logger.infof" "infof".toList := by
    constructor <;> decide +kernel
  refine ⟨training, hconvert, fun hmem => ?_, ?_⟩
  · have hoverlooked := ((hlabels _ ⟨_, hinfo⟩).mp hmem).2 _ hinfo
    exact absurd hoverlooked (by decide +kernel)
  · exact ((hlabels _ ⟨_, hinfof⟩).mp (by decide)).2

/-- A level of the standard library's loggers stays in the labels of the very call that
is detected by it. -/
theorem Converter.fine_left_in_labels :
    let word (id : UInt64) (contents : String) : Node :=
      ⟨id, .token, contents, 3, 3, 0, 1⟩
    let graph : Graph :=
      ⟨"A.java", [word 1 "java.util.logging.Level.FINE", word 2 "log", word 3 "DOT",
        word 4 "fine", word 5 "LPAREN", word 6 "m", word 7 "RPAREN", word 8 "SEMI"], []⟩
    let entries : List (Location × Entry) := [(["corpus"], .directory),
      (["corpus", "A.proto"], .file (.bytes graph.toRecord))]
    let disk : Disk := { entries := .ofList entries }
    let call : Occurrence := ⟨"A.proto", .info, "m", some 2, some 3⟩
    let converter : Converter := ⟨⟨"/corpus"⟩, ⟨.severity, wordTokens⟩, 8⟩
    converter.corpus.detect disk = .ok [call] ∧
      ¬ ∀ training, converter.convert disk call = .ok training →
        ∀ label ∈ training.nodeLabels, ∀ segment, ¬ Reveals label segment := by
  intro word graph entries disk call converter
  let training : TrainingExample :=
    ⟨["java.util.logging.Level.FINE", ""], [], [], ["info"], 1⟩
  have hdetect : converter.corpus.detect disk = .ok [call] := by
    decide +kernel
  have hconvert : converter.convert disk call = .ok training := by
    decide +kernel
  have hfine : Reveals "java.util.logging.Level.FINE" "FINE".toList := by
    constructor <;> decide +kernel
  exact ⟨hdetect, fun hclaim =>
    hclaim training hconvert _ List.mem_cons_self "FINE".toList hfine⟩

end LogCorpus
