/-
Reading back what was written.

A decoder reads a piece of bytes as a value if it takes exactly that piece off
the front of whatever follows.  Pieces that are read one after the other make up
a larger piece, so each reader of a payload is held to its writer by the readers
of its parts.
-/
import LogCorpus.Record.Payload
import Mathlib.Algebra.Group.Nat.Defs

namespace LogCorpus

namespace Decoder

/-- The decoder takes these bytes off the front, no more, as this value. -/
def Reads (decoder : Decoder α) (written : List UInt8) (value : α) : Prop :=
  ∀ rest : List UInt8, decoder.run (written ++ rest) = .ok (value, rest)

theorem reads_pure (value : α) : Reads (pure value) [] value :=
  fun _ => rfl

theorem Reads.bind {first : Decoder α} {next : α → Decoder β}
    {head tail : List UInt8} {value : α} {result : β}
    (hfirst : first.Reads head value) (hnext : (next value).Reads tail result) :
    (first >>= next).Reads (head ++ tail) result := by
  intro rest
  rw [StateT.run_bind, List.append_assoc, hfirst (tail ++ rest)]
  exact hnext rest

theorem Reads.bind_pure {first : Decoder α} {next : α → Decoder β}
    {written : List UInt8} {value : α} {result : β}
    (hfirst : first.Reads written value) (hnext : next value = pure result) :
    (first >>= next).Reads written result := by
  rw [← List.append_nil written]
  exact hfirst.bind (hnext ▸ reads_pure result)

theorem Reads.map {decoder : Decoder α} {written : List UInt8} {value : α}
    (hreads : decoder.Reads written value) (image : α → β) :
    (image <$> decoder).Reads written (image value) := by
  intro rest
  rw [StateT.run_map, hreads rest]
  rfl

theorem reads_byte (value : UInt8) : byte.Reads [value] value :=
  fun _ => rfl

theorem run_take (count : Nat) (bytes : List UInt8) :
    (take count).run bytes =
      if count ≤ bytes.length then .ok (bytes.take count, bytes.drop count)
      else .error .endOfBuffer := by
  change (if (bytes.splitAt count).1.length = count then
    Except.ok ((bytes.splitAt count).1, (bytes.splitAt count).2)
    else Except.error DecodeFault.endOfBuffer) = _
  rw [List.splitAt_eq, List.length_take]
  by_cases hcount : count ≤ bytes.length
  · rw [if_pos hcount, if_pos (Nat.min_eq_left hcount)]
  · rw [if_neg hcount, if_neg (by omega)]

theorem reads_take (bytes : List UInt8) : (take bytes.length).Reads bytes bytes := by
  intro rest
  have hlength : bytes.length ≤ (bytes ++ rest).length := by
    rw [List.length_append]
    omega
  rw [run_take, if_pos hlength, List.take_left, List.drop_left]

/-- Items that are read back one by one are read back as a list. -/
theorem reads_times {item : Decoder α} {write : α → List UInt8} {items : List α}
    (hitem : ∀ value ∈ items, item.Reads (write value) value) :
    (times items.length item).Reads (items.flatMap write) items := by
  induction items with
  | nil => exact reads_pure []
  | cons head tail ih =>
      rw [List.flatMap_cons]
      apply (hitem head List.mem_cons_self).bind
      apply (ih fun value hvalue => hitem value (List.mem_cons_of_mem head hvalue)).bind_pure
      rfl

end Decoder

open Decoder

/-- A number that fits the groups and the last byte is read back. -/
theorem readGroups_reads {limit : Nat} (hlimit : limit < 256) {groups number : Nat}
    (hnumber : number < 128 ^ groups * (limit + 1)) :
    (readGroups limit groups).Reads (writeGroups groups number) number := by
  induction groups generalizing number with
  | zero =>
      have hbyte : (UInt8.ofNat number).toNat = number := by
        simp only [UInt8.toNat_ofNat']
        omega
      apply (reads_byte (UInt8.ofNat number)).bind_pure
      rw [hbyte, if_pos (by omega)]
  | succ groups ih =>
      rw [writeGroups]
      by_cases hsmall : number < 128
      · have hbyte : (UInt8.ofNat number).toNat = number := by
          simp only [UInt8.toNat_ofNat']
          omega
        rw [if_pos hsmall]
        apply (reads_byte (UInt8.ofNat number)).bind_pure
        rw [hbyte, if_pos hsmall]
      · have hbyte : (UInt8.ofNat (number % 128 + 128)).toNat = number % 128 + 128 := by
          simp only [UInt8.toNat_ofNat']
          omega
        have hrest : number / 128 < 128 ^ groups * (limit + 1) := by
          rw [Nat.div_lt_iff_lt_mul (by decide)]
          rwa [Nat.mul_right_comm, ← Nat.pow_succ]
        rw [if_neg hsmall]
        apply (reads_byte (UInt8.ofNat (number % 128 + 128))).bind
        rw [hbyte, if_neg (by omega)]
        apply (ih hrest).bind_pure
        congr 1
        omega

theorem readVarint_reads (width : Width) {number : Nat}
    (hnumber : number < 2 ^ width.bits) :
    (readVarint width).Reads (writeVarint width number) number := by
  cases width with
  | word32 => exact readGroups_reads (by decide) hnumber
  | word64 => exact readGroups_reads (by decide) hnumber

theorem readWord32_reads (word : UInt32) :
    readWord32.Reads (writeWord32 word) word := by
  have hreads := (readVarint_reads .word32 word.toNat_lt).map UInt32.ofNat
  rwa [UInt32.ofNat_toNat] at hreads

theorem readWord64_reads (word : UInt64) :
    readWord64.Reads (writeWord64 word) word := by
  have hreads := (readVarint_reads .word64 word.toNat_lt).map UInt64.ofNat
  rwa [UInt64.ofNat_toNat] at hreads

theorem readText_reads {text : String} (hlength : (utf8 text).length < 2 ^ 64) :
    readText.Reads (writeText text) text := by
  apply (readVarint_reads .word64 hlength).bind
  apply (reads_take (utf8 text)).bind_pure
  rw [ofUtf8?_utf8]

theorem readSequence_reads {item : Decoder α} {write : α → List UInt8}
    {items : List α} (hlength : items.length < 2 ^ 64)
    (hitem : ∀ value ∈ items, item.Reads (write value) value) :
    (readSequence item).Reads (writeSequence write items) items :=
  (readVarint_reads .word64 hlength).bind (reads_times hitem)

theorem readOrdinal_reads {kinds : List α} {kind : α} {ordinal : Nat}
    (hkind : kinds[ordinal]? = some kind) (hsmall : ordinal < 2 ^ 32) :
    (readOrdinal kinds).Reads (writeVarint .word32 ordinal) kind := by
  apply (readVarint_reads .word32 hsmall).bind_pure
  rw [hkind]

theorem readNodeKind_reads (kind : NodeKind) :
    (readOrdinal NodeKind.all).Reads (writeVarint .word32 kind.ordinal) kind :=
  readOrdinal_reads (NodeKind.all_getElem?_ordinal kind) (by cases kind <;> decide)

theorem readEdgeKind_reads (kind : EdgeKind) :
    (readOrdinal EdgeKind.all).Reads (writeVarint .word32 kind.ordinal) kind :=
  readOrdinal_reads (EdgeKind.all_getElem?_ordinal kind) (by cases kind <;> decide)

theorem readNode_reads {node : Node}
    (hcontents : (utf8 node.contents).length < 2 ^ 64) :
    readNode.Reads (writeNode node) node := by
  rw [writeNode]
  simp only [List.append_assoc]
  apply (readWord64_reads node.id).bind
  apply (readNodeKind_reads node.kind).bind
  apply (readText_reads hcontents).bind
  apply (readWord32_reads node.startLine).bind
  apply (readWord32_reads node.endLine).bind
  apply (readWord32_reads node.startPosition).bind
  apply (readWord32_reads node.endPosition).bind_pure
  rfl

theorem readEdge_reads (edge : Edge) : readEdge.Reads (writeEdge edge) edge := by
  rw [writeEdge, List.append_assoc]
  apply (readWord64_reads edge.source).bind
  apply (readWord64_reads edge.target).bind
  apply (readEdgeKind_reads edge.kind).bind_pure
  rfl

/-- No number is written as nothing. -/
theorem writeVarint_ne_nil (width : Width) (number : Nat) :
    writeVarint width number ≠ [] := by
  cases width <;> simp only [writeVarint, Width.fullGroups, writeGroups] <;>
    split <;> simp

theorem length_le_length_flatMap {write : α → List UInt8}
    (hwrite : ∀ value, write value ≠ []) (items : List α) :
    items.length ≤ (items.flatMap write).length := by
  induction items with
  | nil => exact Nat.le_refl 0
  | cons head tail ih =>
      have hhead := List.length_pos_iff.mpr (hwrite head)
      rw [List.flatMap_cons, List.length_append, List.length_cons]
      omega

theorem length_le_length_flatMap_of_mem (write : α → List UInt8) {items : List α}
    {value : α} (hvalue : value ∈ items) :
    (write value).length ≤ (items.flatMap write).length := by
  obtain ⟨before, behind, rfl⟩ := List.append_of_mem hvalue
  rw [List.flatMap_append, List.flatMap_cons, List.length_append,
    List.length_append]
  omega

namespace Graph

/-- Every text and every sequence of the graph has a length that a record can hold: one
of 64 bits. -/
structure Addressable (graph : Graph) : Prop where
  sourceFile_lt : (utf8 graph.sourceFile).length < 2 ^ 64
  nodes_lt : graph.nodes.length < 2 ^ 64
  contents_lt : ∀ node ∈ graph.nodes, (utf8 node.contents).length < 2 ^ 64
  edges_lt : graph.edges.length < 2 ^ 64

/-- No part of a written form is longer than the whole. -/
theorem addressable_of_length_writeGraph_lt {graph : Graph}
    (hlength : (writeGraph graph).length < 2 ^ 64) : graph.Addressable := by
  have hnode (node : Node) : writeNode node ≠ [] := by
    simp [writeNode, writeWord64, writeVarint_ne_nil]
  have hedge (edge : Edge) : writeEdge edge ≠ [] := by
    simp [writeEdge, writeWord64, writeVarint_ne_nil]
  have hnodes := length_le_length_flatMap hnode graph.nodes
  have hedges := length_le_length_flatMap hedge graph.edges
  rw [writeGraph, writeText, writeSequence, writeSequence] at hlength
  simp only [List.length_append] at hlength
  refine ⟨by omega, by omega, ?_, by omega⟩
  intro node hmem
  have hwritten := length_le_length_flatMap_of_mem writeNode hmem
  have hcontents : (utf8 node.contents).length ≤ (writeNode node).length := by
    simp only [writeNode, writeText, List.length_append]
    omega
  omega

end Graph

/-- A graph whose lengths a record can hold is read back. -/
theorem readGraph_reads {graph : Graph} (hgraph : graph.Addressable) :
    readGraph.Reads (writeGraph graph) graph := by
  rw [writeGraph, List.append_assoc]
  apply (readText_reads hgraph.sourceFile_lt).bind
  apply Reads.bind
  · apply readSequence_reads hgraph.nodes_lt
    exact fun node hmem => readNode_reads (hgraph.contents_lt node hmem)
  · apply Reads.bind_pure
    · exact readSequence_reads hgraph.edges_lt fun edge _ => readEdge_reads edge
    · rfl

end LogCorpus
