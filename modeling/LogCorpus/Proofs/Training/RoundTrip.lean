/-
Training examples, read back.

The data type of an example has lists of any numbers where a record on disk has numbers
of 64 bits and a map.  Within these bounds an example is what its line denotes.
-/
import LogCorpus.Proofs.Graph.Kind
import LogCorpus.Proofs.Json.RoundTrip
import LogCorpus.Proofs.Stateful
import LogCorpus.Training.Example

namespace LogCorpus

namespace TrainingExample

/-- The places and the sentinel are numbers of 64 bits, and the groups of edges make a
map from kinds to lists of pairs, the empty list among them. -/
structure Representable (training : TrainingExample) : Prop where
  places_lt : ∀ place ∈ training.places, place < UInt64.size
  byKind_edges : ByKind training.edges
  le_logNode : Int64.minValue.toInt ≤ training.logNode
  logNode_le : training.logNode ≤ Int64.maxValue.toInt

instance (training : TrainingExample) : Decidable training.Representable :=
  decidable_of_iff ((∀ place ∈ training.places, place < UInt64.size) ∧
      ByKind training.edges ∧ Int64.minValue.toInt ≤ training.logNode ∧
      training.logNode ≤ Int64.maxValue.toInt)
    ⟨fun ⟨hplaces, hkinds, hleast, hmost⟩ => ⟨hplaces, hkinds, hleast, hmost⟩,
      fun ⟨hplaces, hkinds, hleast, hmost⟩ => ⟨hplaces, hkinds, hleast, hmost⟩⟩

theorem mem_places {training : TrainingExample} {place : Nat} :
    place ∈ training.places ↔ place ∈ training.backbone ∨
      ∃ group ∈ training.edges, ∃ pair ∈ group.2, place = pair.1 ∨ place = pair.2 := by
  simp [places]

/-- The JSON value of an example is made of texts, integers, lists and members. -/
theorem lossless_toJson (training : TrainingExample) : training.toJson.Lossless := by
  have hpair (pair : Nat × Nat) :
      (Json.array [.natural pair.1, .natural pair.2]).Lossless :=
    Json.Lossless.map Json.Lossless.natural [pair.1, pair.2]
  apply Json.Lossless.ofMembers
  intro member hmember
  simp only [List.mem_cons, List.not_mem_nil, or_false] at hmember
  rcases hmember with rfl | rfl | rfl | rfl | rfl
  · exact Json.Lossless.map Json.Lossless.text training.nodeLabels
  · exact Json.Lossless.map Json.Lossless.natural training.backbone
  · apply Json.Lossless.ofMembers
    intro group hgroup
    obtain ⟨source, _, rfl⟩ := List.mem_map.mp hgroup
    exact Json.Lossless.map hpair source.2
  · exact Json.Lossless.map Json.Lossless.text training.target
  · exact Json.Lossless.integer training.logNode

/-! ### From an example to its JSON and back -/

theorem list?_texts (texts : List String) :
    (Json.array (texts.map .text)).list? Json.text? = some texts := by
  have hread := mapM_map_eq_some fun text (_ : text ∈ texts) => Json.text?_text text
  rw [Json.list?, hread, List.map_id']

theorem list?_places {places : List Nat} (hplaces : ∀ place ∈ places, place < UInt64.size) :
    (Json.array (places.map .natural)).list? place? = some places := by
  have hread := mapM_map_eq_some fun place hplace =>
    Json.naturalBelow?_natural (hplaces place hplace)
  rw [Json.list?, place?, hread, List.map_id']

theorem pair?_pair {pair : Nat × Nat} (hsource : pair.1 < UInt64.size)
    (htarget : pair.2 < UInt64.size) :
    pair? (.array [.natural pair.1, .natural pair.2]) = some pair := by
  simp [pair?, place?, Json.naturalBelow?_natural hsource,
    Json.naturalBelow?_natural htarget]

/-- A group of edges is read back under the name of its kind. -/
theorem group?_group {group : EdgeKind × List (Nat × Nat)}
    (hgroup : ∀ pair ∈ group.2, pair.1 < UInt64.size ∧ pair.2 < UInt64.size) :
    group? (some group.1.name, .array (group.2.map fun pair =>
      .array [.natural pair.1, .natural pair.2])) = some group := by
  have hread := mapM_map_eq_some fun pair hpair =>
    pair?_pair (hgroup pair hpair).1 (hgroup pair hpair).2
  simp [group?, EdgeKind.ofName?_name, Json.list?, hread]

theorem edges?_groups {groups : List (EdgeKind × List (Nat × Nat))}
    (hkinds : ByKind groups)
    (hgroups : ∀ group ∈ groups, ∀ pair ∈ group.2,
      pair.1 < UInt64.size ∧ pair.2 < UInt64.size) :
    edges? (.ofMembers (groups.map fun group =>
      (group.1.name, .array (group.2.map fun pair =>
        .array [.natural pair.1, .natural pair.2])))) = some groups := by
  have hread := mapM_map_eq_some fun group hgroup => group?_group (hgroups group hgroup)
  rw [Json.ofMembers, List.map_map, edges?]
  simp only [Function.comp_def, hread, List.map_id', Option.bind_eq_bind,
    Option.bind_some, hkinds.lookup_reverse, hkinds.filterMap_lookup]
  rfl

theorem fields?_toJson (training : TrainingExample) :
    training.toJson.fields? fieldNames = some [
      .array (training.nodeLabels.map .text),
      .array (training.backbone.map .natural),
      .ofMembers (training.edges.map fun group =>
        (group.1.name, .array (group.2.map fun pair =>
          .array [.natural pair.1, .natural pair.2]))),
      .array (training.target.map .text),
      .integer training.logNode] := by
  rfl

/-- An example is read back from its JSON value. -/
theorem Representable.ofJson?_toJson {training : TrainingExample}
    (htraining : training.Representable) : ofJson? training.toJson = some training := by
  have hbackbone : ∀ place ∈ training.backbone, place < UInt64.size :=
    fun place hplace => htraining.places_lt place (mem_places.mpr (.inl hplace))
  have hgroups : ∀ group ∈ training.edges, ∀ pair ∈ group.2,
      pair.1 < UInt64.size ∧ pair.2 < UInt64.size := by
    intro group hgroup pair hpair
    constructor
    · exact htraining.places_lt pair.1
        (mem_places.mpr (.inr ⟨group, hgroup, pair, hpair, .inl rfl⟩))
    · exact htraining.places_lt pair.2
        (mem_places.mpr (.inr ⟨group, hgroup, pair, hpair, .inr rfl⟩))
  have hlogNode : signed? (.integer training.logNode) = some training.logNode :=
    if_pos ⟨htraining.le_logNode, htraining.logNode_le⟩
  rw [ofJson?, fields?_toJson]
  simp only [Option.bind_eq_bind, Option.bind_some, list?_texts,
    list?_places hbackbone, edges?_groups htraining.byKind_edges hgroups, hlogNode]
  rfl

/-- An example is what its line denotes. -/
theorem Representable.parse?_line {training : TrainingExample}
    (htraining : training.Representable) : parse? training.line = some training := by
  rw [parse?, line, training.lossless_toJson.parse?_line]
  exact htraining.ofJson?_toJson

end TrainingExample

end LogCorpus
