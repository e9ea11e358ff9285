/-
The backbone of tokens.

The next-token edges of a graph lead from one token to the next, in the order of the
places.  A statement is a stretch of places, so the tokens in it are a block of the
chain.  An excision puts the root in the place of the block: what is left is a chain
again, with no gap, no fork and no loop, and its places are the backbone of an example.
-/
import LogCorpus.Proofs.Statement.Remainder
import LogCorpus.Proofs.Training.Projection
import Mathlib.Data.Fin.Basic
import Mathlib.Data.List.Sort
import Mathlib.Data.Set.List

namespace LogCorpus

/-- The ends of an edge. -/
def Edge.ends (edge : Edge) : UInt64 × UInt64 :=
  (edge.source, edge.target)

section

variable (inside : UInt64 → Bool) (root : UInt64)

/-- Pairs of ids after a contraction: a pair inside is gone, and an end that was inside
is the root. -/
def contractPairs (pairs : List (UInt64 × UInt64)) : List (UInt64 × UInt64) :=
  (pairs.filter fun pair => !(inside pair.1 && inside pair.2)).map fun pair =>
    (if inside pair.1 then root else pair.1, if inside pair.2 then root else pair.2)

theorem contractPairs_cons (pair : UInt64 × UInt64) (pairs : List (UInt64 × UInt64)) :
    contractPairs inside root (pair :: pairs) =
      if inside pair.1 && inside pair.2 then contractPairs inside root pairs
      else (if inside pair.1 then root else pair.1,
        if inside pair.2 then root else pair.2) :: contractPairs inside root pairs := by
  rw [contractPairs, List.filter_cons]
  by_cases hinner : inside pair.1 && inside pair.2
  · rw [if_pos hinner, if_neg (by rw [hinner]; decide)]
    rfl
  · rw [if_neg hinner, if_pos (by rw [Bool.eq_false_of_not_eq_true hinner]; rfl)]
    rfl

variable {inside}

/-- A chain outside stays. -/
theorem contractPairs_outside {ids : List UInt64} (hout : ∀ id ∈ ids, ¬ inside id) :
    contractPairs inside root ids.consecutivePairs = ids.consecutivePairs := by
  have hends : ∀ pair ∈ ids.consecutivePairs, ¬ inside pair.1 ∧ ¬ inside pair.2 := by
    rintro ⟨first, second⟩ hpair
    obtain ⟨hfirst, hsecond⟩ := List.of_mem_zip hpair
    exact ⟨hout first hfirst, hout second (List.mem_of_mem_tail hsecond)⟩
  rw [contractPairs, List.filter_eq_self.mpr]
  · apply (List.map_congr_left fun pair hpair => ?_).trans (List.map_id _)
    rw [if_neg (hends pair hpair).1, if_neg (hends pair hpair).2]
    rfl
  · intro pair hpair
    rw [Bool.eq_false_of_not_eq_true (hends pair hpair).1]
    rfl

/-- A chain that starts inside and goes on outside starts at the root. -/
theorem contractPairs_block {block back : List UInt64} (hblock : block ≠ [])
    (hin : ∀ id ∈ block, inside id) (hout : ∀ id ∈ back, ¬ inside id) :
    contractPairs inside root (block ++ back).consecutivePairs =
      (root :: back).consecutivePairs := by
  induction block with
  | nil => exact absurd rfl hblock
  | cons first rest ih =>
      have hfirst := hin first List.mem_cons_self
      cases rest with
      | nil =>
          cases back with
          | nil => rfl
          | cons next back =>
              have hnext := hout next List.mem_cons_self
              change contractPairs inside root
                ((first, next) :: (next :: back).consecutivePairs) = _
              rw [contractPairs_cons, if_neg fun h => hnext (Bool.and_eq_true_iff.mp h).2,
                if_pos hfirst, if_neg hnext, contractPairs_outside root hout]
              rfl
      | cons second rest =>
          have hsecond := hin second (List.mem_cons_of_mem _ List.mem_cons_self)
          change contractPairs inside root
            ((first, second) :: (second :: rest ++ back).consecutivePairs) = _
          rw [contractPairs_cons, if_pos (Bool.and_eq_true_iff.mpr ⟨hfirst, hsecond⟩)]
          exact ih (List.cons_ne_nil _ _) fun id hid => hin id (List.mem_cons_of_mem _ hid)

/-- A chain with a block inside has the root in the place of the block. -/
theorem contractPairs_chain {front block back : List UInt64} (hblock : block ≠ [])
    (hfront : ∀ id ∈ front, ¬ inside id) (hin : ∀ id ∈ block, inside id)
    (hback : ∀ id ∈ back, ¬ inside id) :
    contractPairs inside root (front ++ (block ++ back)).consecutivePairs =
      (front ++ root :: back).consecutivePairs := by
  induction front with
  | nil => exact contractPairs_block root hblock hin hback
  | cons first rest ih =>
      have hfirst := hfront first List.mem_cons_self
      have htail := ih fun id hid => hfront id (List.mem_cons_of_mem _ hid)
      cases rest with
      | nil =>
          -- the seam: the last id in front and the first of the block
          cases block with
          | nil => exact absurd rfl hblock
          | cons next block =>
              have hnext := hin next List.mem_cons_self
              change contractPairs inside root
                ((first, next) :: (next :: block ++ back).consecutivePairs) = _
              rw [contractPairs_cons, if_neg fun h => hfirst (Bool.and_eq_true_iff.mp h).1,
                if_neg hfirst, if_pos hnext]
              exact congrArg ((first, root) :: ·) htail
      | cons second rest =>
          have hsecond := hfront second (List.mem_cons_of_mem _ List.mem_cons_self)
          change contractPairs inside root
            ((first, second) :: (second :: rest ++ (block ++ back)).consecutivePairs) = _
          rw [contractPairs_cons, if_neg fun h => hfirst (Bool.and_eq_true_iff.mp h).1,
            if_neg hfirst, if_neg hsecond]
          exact congrArg ((first, second) :: ·) htail

end

/-- The ends of the pairs of a chain are its ids, unless the chain has no pair. -/
theorem mem_ends_consecutivePairs {ids : List UInt64} (hlength : 2 ≤ ids.length)
    (id : UInt64) :
    (∃ pair ∈ ids.consecutivePairs, id = pair.1 ∨ id = pair.2) ↔ id ∈ ids := by
  constructor
  · rintro ⟨⟨first, second⟩, hpair, hid⟩
    obtain ⟨hfirst, hsecond⟩ := List.of_mem_zip hpair
    rcases hid with rfl | rfl
    · exact hfirst
    · exact List.mem_of_mem_tail hsecond
  · intro hid
    obtain ⟨place, hplace, rfl⟩ := List.mem_iff_getElem.mp hid
    -- the last id ends a pair, every other one starts one
    by_cases hnext : place + 1 < ids.length
    · refine ⟨(ids[place], ids[place + 1]), ?_, .inl rfl⟩
      rw [List.mem_iff_getElem]
      exact ⟨place, by simp; omega, by simp⟩
    · refine ⟨(ids[place - 1], ids[place]), ?_, .inr rfl⟩
      rw [List.mem_iff_getElem]
      refine ⟨place - 1, by simp; omega, ?_⟩
      have hsucc : place - 1 + 1 = place := by omega
      simp [hsucc]

/-- The items at increasing places are a sublist. -/
theorem exists_increasing_iff_sublist {α : Type} {items part : List α} :
    (∃ places : List Nat, places.map (items[·]?) = part.map some ∧
        places.Pairwise (· < ·)) ↔ part.Sublist items := by
  constructor
  · rintro ⟨places, hplaces, hincreasing⟩
    have hbound : ∀ place ∈ places, place < items.length := by
      intro place hplace
      have hsome := List.mem_map_of_mem (f := (items[·]?)) hplace
      rw [hplaces] at hsome
      obtain ⟨item, _, heq⟩ := List.mem_map.mp hsome
      exact (List.getElem?_eq_some_iff.mp heq.symm).1
    lift places to List (Fin items.length) using hbound
    have hpart : (places.map (items[·])).map some = part.map some := by
      rw [← hplaces, List.map_map, List.map_map]
      exact List.map_congr_left fun index _ =>
        (List.getElem?_eq_getElem index.isLt).symm
    rw [← List.map_injective_iff.mpr (Option.some_injective _) hpart]
    exact List.map_getElem_sublist ((List.pairwise_map (f := Fin.val)).mp hincreasing)
  · intro hsublist
    obtain ⟨indices, rfl, hincreasing⟩ := List.sublist_eq_map_getElem hsublist
    refine ⟨indices.map Fin.val, ?_, List.pairwise_map.mpr hincreasing⟩
    rw [List.map_map, List.map_map]
    exact List.map_congr_left fun index _ => List.getElem?_eq_getElem index.isLt

namespace Graph

/-- The next-token edges, by their ends. -/
def links (graph : Graph) : List (UInt64 × UInt64) :=
  (graph.edges.filter fun edge => edge.kind = .nextToken).map Edge.ends

/-- The next-token edges are the steps of a chain of nodes, each of them behind the one
before. -/
structure IsTokenChain (graph : Graph) (ids : List UInt64) (places : List Nat) :
    Prop where
  position?_eq : ids.map graph.position? = places.map some
  increasing : places.Pairwise (· < ·)
  links_perm : graph.links.Perm ids.consecutivePairs

theorem WellFormed.position?_eq_some_iff_ids {graph : Graph} (hgraph : graph.WellFormed)
    {id : UInt64} {place : Nat} :
    graph.position? id = some place ↔ graph.ids[place]? = some id := by
  rw [hgraph.position?_eq_some_iff, ids, List.getElem?_map, Option.map_eq_some_iff]

theorem WellFormed.map_position?_eq_iff {graph : Graph} (hgraph : graph.WellFormed)
    {ids : List UInt64} {places : List Nat} :
    ids.map graph.position? = places.map some ↔
      places.map (graph.ids[·]?) = ids.map some := by
  induction ids generalizing places with
  | nil => cases places <;> simp
  | cons id ids ih =>
      cases places with
      | nil => simp
      | cons place places =>
          simp only [List.map_cons, List.cons.injEq, hgraph.position?_eq_some_iff_ids, ih]

/-- Ids with increasing places are a sublist of the ids in the order of the nodes. -/
theorem WellFormed.exists_places_iff {graph : Graph} (hgraph : graph.WellFormed)
    {ids : List UInt64} :
    (∃ places : List Nat, ids.map graph.position? = places.map some ∧
        places.Pairwise (· < ·)) ↔ ids.Sublist graph.ids := by
  simp only [hgraph.map_position?_eq_iff]
  exact exists_increasing_iff_sublist

/-- An excision contracts the next-token edges onto the root. -/
theorem links_excised (graph : Graph) (span : Span) :
    (graph.contract span).sanitize.links =
      contractPairs (((graph.spanNodes span).map Node.id).contains ·) span.root
        graph.links := by
  simp only [links, contractPairs, sanitize, contract, List.filter_map, List.map_map,
    List.filter_filter]
  congr 1
  apply List.filter_congr
  intro edge _
  exact Bool.and_comm _ _

/-- The places of the backbone: those of nodes at an end of a next-token edge. -/
theorem mem_backbone_iff (graph : Graph) {place : Nat} :
    place ∈ graph.backbone ↔
      ∃ id, (∃ pair ∈ graph.links, id = pair.1 ∨ id = pair.2) ∧
        graph.ids[place]? = some id := by
  rw [backbone, List.mem_map]
  constructor
  · rintro ⟨⟨id, _⟩, hentry, rfl⟩
    obtain ⟨hget, hends⟩ := List.mem_filter.mp hentry
    rw [Std.TreeSet.contains_ofList, List.contains_iff_mem, List.mem_flatMap] at hends
    obtain ⟨edge, hedge, hid⟩ := hends
    exact ⟨id, ⟨edge.ends, List.mem_map_of_mem hedge, by simpa [Edge.ends] using hid⟩,
      List.mem_zipIdx_iff_getElem?.mp hget⟩
  · rintro ⟨id, ⟨_, hpair, hid⟩, hget⟩
    obtain ⟨edge, hedge, rfl⟩ := List.mem_map.mp hpair
    refine ⟨(id, place), List.mem_filter.mpr
      ⟨List.mem_zipIdx_iff_getElem?.mpr hget, ?_⟩, rfl⟩
    rw [Std.TreeSet.contains_ofList, List.contains_iff_mem, List.mem_flatMap]
    exact ⟨edge, hedge, by simpa [Edge.ends] using hid⟩

theorem pairwise_backbone (graph : Graph) : graph.backbone.Pairwise (· < ·) := by
  have hplaces : (graph.ids.zipIdx.map Prod.snd).Pairwise (· < ·) := by
    rw [List.zipIdx_map_snd]
    exact List.pairwise_lt_range'
  exact hplaces.sublist (List.filter_sublist.map Prod.snd)

section

variable {graph : Graph} {ids : List UInt64} {places : List Nat}

theorem IsTokenChain.mem_places_iff (hgraph : graph.WellFormed)
    (hchain : graph.IsTokenChain ids places) {place : Nat} :
    place ∈ places ↔ ∃ id ∈ ids, graph.ids[place]? = some id := by
  have hsome : place ∈ places ↔ some place ∈ ids.map graph.position? := by
    rw [hchain.position?_eq]
    exact (List.mem_map_of_injective (Option.some_injective _)).symm
  rw [hsome, List.mem_map]
  simp only [hgraph.position?_eq_some_iff_ids]

/-- The backbone of a chain is made of the chain's places. -/
theorem IsTokenChain.backbone_eq (hgraph : graph.WellFormed)
    (hchain : graph.IsTokenChain ids places) (hlength : 2 ≤ ids.length) :
    graph.backbone = places := by
  apply graph.pairwise_backbone.eq_of_mem_iff hchain.increasing
  intro place
  rw [graph.mem_backbone_iff, hchain.mem_places_iff hgraph]
  simp only [hchain.links_perm.mem_iff, mem_ends_consecutivePairs hlength]

end

/-- The ids in front of a statement, in it and behind it. -/
theorem IsStatement.ids_eq_append {graph : Graph} {root : UInt64} {span : Span}
    (hspan : graph.IsStatement root span) :
    graph.ids = graph.ids.take span.base ++
      ((graph.spanNodes span).map Node.id ++ graph.ids.drop span.stop) := by
  have hstop := hspan.base_add_two_le
  rw [ids, spanNodes, List.map_drop, List.map_take,
    take_append_between _ (by omega : span.base ≤ span.stop)]

section

variable {graph : Graph} (hgraph : graph.WellFormed) {root : UInt64} {span : Span}
  (hspan : graph.IsStatement root span)
include hgraph hspan

/-- The ids that are left, with the root between the other ones. -/
theorem WellFormed.ids_excised_eq :
    (graph.contract span).sanitize.ids =
      graph.ids.take span.base ++ root :: graph.ids.drop span.stop := by
  have hroot : graph.ids[span.base]? = some root :=
    hgraph.position?_eq_some_iff_ids.mp hspan.position?_eq
  rw [ids_excised, List.take_add_one, hroot, Option.toList_some, List.append_assoc,
    List.singleton_append]

/-- The ids of a sublist that are in a statement are a block of it. -/
theorem WellFormed.exists_block {ids : List UInt64} (hids : ids.Sublist graph.ids) :
    ∃ front block back, ids = front ++ (block ++ back) ∧
      front.Sublist (graph.ids.take span.base) ∧
      block.Sublist ((graph.spanNodes span).map Node.id) ∧
      back.Sublist (graph.ids.drop span.stop) ∧
      ∀ id ∈ front ++ back, id ∉ (graph.spanNodes span).map Node.id := by
  have hnodup := hgraph.nodup_ids
  rw [hspan.ids_eq_append] at hids hnodup
  obtain ⟨front, rest, rfl, hfront, hrest⟩ := List.sublist_append_iff.mp hids
  obtain ⟨block, back, rfl, hblock, hback⟩ := List.sublist_append_iff.mp hrest
  refine ⟨front, block, back, rfl, hfront, hblock, hback, ?_⟩
  obtain ⟨_, hbehind, hapart⟩ := List.nodup_append.mp hnodup
  obtain ⟨_, _, hbehindApart⟩ := List.nodup_append.mp hbehind
  intro id hid hinside
  rcases List.mem_append.mp hid with hmem | hmem
  · exact hapart id (hfront.mem hmem) id (List.mem_append_left _ hinside) rfl
  · exact hbehindApart id hinside id (hback.mem hmem) rfl

end

/-- The edges of a chain after an excision: those of the chain with the root in the
place of its block, or the same ones if the block is empty. -/
theorem links_excised_perm {graph : Graph} {span : Span} {front block back : List UInt64}
    (hlinks : graph.links.Perm (front ++ (block ++ back)).consecutivePairs)
    (hin : ∀ id ∈ block, id ∈ (graph.spanNodes span).map Node.id)
    (hout : ∀ id ∈ front ++ back, id ∉ (graph.spanNodes span).map Node.id) :
    (graph.contract span).sanitize.links.Perm
      (front ++ ((if block = [] then [] else [span.root]) ++ back)).consecutivePairs := by
  have hinside (id : UInt64) :
      ((graph.spanNodes span).map Node.id).contains id ↔
        id ∈ (graph.spanNodes span).map Node.id := List.contains_iff_mem
  have hchain : contractPairs (((graph.spanNodes span).map Node.id).contains ·) span.root
      (front ++ (block ++ back)).consecutivePairs =
        (front ++ ((if block = [] then [] else [span.root]) ++ back)).consecutivePairs := by
    by_cases hblock : block = []
    · rw [if_pos hblock, hblock]
      exact contractPairs_outside _ fun id hid => (hinside id).not.mpr (hout id hid)
    · rw [if_neg hblock]
      exact contractPairs_chain _ hblock
        (fun id hid => (hinside id).not.mpr (hout id (List.mem_append_left _ hid)))
        (fun id hid => (hinside id).mpr (hin id hid))
        (fun id hid => (hinside id).not.mpr (hout id (List.mem_append_right _ hid)))
  rw [links_excised, ← hchain]
  exact (hlinks.filter _).map _

/-- An excision keeps a chain of tokens linear.  The ids of the chain that are in the
statement are a block of it, and the root stands in the place of this block; a chain
without an id in the statement stays as it is.  The nodes are still one behind the
other, and their places are the backbone of every example, unless there is at most one
node. -/
theorem WellFormed.tokenChain_of_excise {graph : Graph} (hgraph : graph.WellFormed)
    {ids : List UInt64} {places : List Nat} (hchain : graph.IsTokenChain ids places)
    {root : UInt64} {excision : Excision} (hexcise : graph.excise root = .ok excision) :
    ∃ front block back left, ids = front ++ (block ++ back) ∧
      (∀ id ∈ block, id ∈ (graph.spanNodes excision.span).map Node.id) ∧
      (∀ id ∈ front ++ back, id ∉ (graph.spanNodes excision.span).map Node.id) ∧
      let chain := front ++ ((if block = [] then [] else [root]) ++ back)
      excision.graph.IsTokenChain chain left ∧
        (2 ≤ chain.length → ∀ target, ∃ training,
          excision.graph.project target = .ok training ∧ training.backbone = left) := by
  obtain ⟨hspan, hafter⟩ := isStatement_of_excise hexcise
  have hwellFormed := hgraph.of_excise hexcise
  have hids : ids.Sublist graph.ids :=
    hgraph.exists_places_iff.mp ⟨places, hchain.position?_eq, hchain.increasing⟩
  obtain ⟨front, block, back, hsplit, hfront, hblock, hback, hout⟩ :=
    hgraph.exists_block hspan hids
  have hin : ∀ id ∈ block, id ∈ (graph.spanNodes excision.span).map Node.id :=
    fun id hid => hblock.mem hid
  -- what is left of the chain is a sublist of the ids that are left, so it has places
  have hleft : (front ++ ((if block = [] then [] else [root]) ++ back)).Sublist
      excision.graph.ids := by
    rw [hafter, hgraph.ids_excised_eq hspan]
    apply hfront.append
    split
    · exact hback.cons root
    · exact hback.cons_cons root
  obtain ⟨left, hposition, hincreasing⟩ := hwellFormed.exists_places_iff.mpr hleft
  have hlinks := links_excised_perm (hsplit ▸ hchain.links_perm) hin hout
  rw [hspan.root_eq, ← hafter] at hlinks
  have hshrunk : excision.graph.IsTokenChain _ left := ⟨hposition, hincreasing, hlinks⟩
  exact ⟨front, block, back, left, hsplit, hin, hout, hshrunk, fun hlength target =>
    ⟨_, hwellFormed.project_eq_ok target, hshrunk.backbone_eq hwellFormed hlength⟩⟩

/-- The root is not a token: the three tokens of its statement are a block between two
others, and nodes of the syntax stand among them. -/
theorem tokenChain_of_excise_between :
    let node (id : UInt64) (kind : NodeKind) (contents : String) : Node :=
      ⟨id, kind, contents, 3, 3, 0, 1⟩
    let graph : Graph :=
      ⟨"A.java", [node 1 .astElement "block", node 9 .token "x",
        node 2 .astElement "call", node 3 .token "log", node 6 .astElement "name",
        node 5 .token "info", node 4 .token ";", node 7 .astElement "block",
        node 8 .token "y"],
        [⟨4, 8, .nextToken⟩, ⟨9, 3, .nextToken⟩, ⟨2, 6, .astChild⟩,
          ⟨3, 5, .nextToken⟩, ⟨5, 4, .nextToken⟩]⟩
    graph.WellFormed ∧ graph.IsTokenChain [9, 3, 5, 4, 8] [1, 3, 5, 6, 8] ∧
      ∃ excision front block back left, graph.excise 2 = .ok excision ∧
        [9, 3, 5, 4, 8] = front ++ (block ++ back) ∧ block ≠ [] ∧
        excision.graph.IsTokenChain (front ++ 2 :: back) left ∧
        ∃ training, excision.graph.project (.severity .info) = .ok training ∧
          training.backbone = left := by
  intro node graph
  have hgraph : graph.WellFormed :=
    ⟨by decide +kernel, by decide +kernel, by decide +kernel⟩
  have hchain : graph.IsTokenChain [9, 3, 5, 4, 8] [1, 3, 5, 6, 8] :=
    ⟨by decide +kernel, by decide +kernel, by decide +kernel⟩
  let excision : Excision :=
    ⟨⟨2, 2, 7, 3, 1⟩, 3, 2, 0, ⟨"A.java", [node 1 .astElement "block",
      node 9 .token "x", node 2 .log "", node 7 .astElement "block",
      node 8 .token "y"], [⟨2, 8, .nextToken⟩, ⟨9, 2, .nextToken⟩]⟩⟩
  have hexcise : graph.excise 2 = .ok excision := by
    decide +kernel
  obtain ⟨front, block, back, left, hsplit, hin, hout, hleft, hproject⟩ :=
    hgraph.tokenChain_of_excise hchain hexcise
  have hblock : block ≠ [] := by
    rintro rfl
    exact hout 3 (by rw [← List.nil_append back, ← hsplit]; decide) (by decide +kernel)
  rw [if_neg hblock] at hleft hproject
  have hothers : front ++ back ≠ [] := by
    intro hnone
    obtain ⟨rfl, rfl⟩ := List.append_eq_nil_iff.mp hnone
    rw [List.append_nil, List.nil_append] at hsplit
    exact absurd (hin 9 (hsplit ▸ List.mem_cons_self)) (by decide +kernel)
  have hlength : 2 ≤ (front ++ ([2] ++ back)).length := by
    have hpos := List.length_pos_iff.mpr hothers
    simp only [List.length_append, List.length_singleton] at hpos ⊢
    omega
  exact ⟨hgraph, hchain, excision, front, block, back, left, hexcise, hsplit, hblock,
    hleft, hproject hlength _⟩

end Graph

end LogCorpus
