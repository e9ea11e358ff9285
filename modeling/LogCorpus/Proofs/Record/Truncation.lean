/-
Records that are cut off or go on.

A decoder takes its input from the front.  Bytes behind the input change nothing unless
the decoder has run out of bytes, and this passes from the readers of the parts to the
reader of a whole payload.  So a record tells by itself where it ends: every part of it
that is cut off too early is refused, whatever follows it is passed over, and no record
is the beginning of another.
-/
import LogCorpus.Proofs.Record.Canonical

namespace LogCorpus

namespace Decoder

/-- Bytes behind the input are left over and change nothing else, unless the decoder
has run out of bytes. -/
def Steady (decoder : Decoder α) : Prop :=
  ∀ bytes rest : List UInt8,
    decoder.run bytes = .error .endOfBuffer ∨
      decoder.run (bytes ++ rest) =
        (decoder.run bytes).map fun (value, left) => (value, left ++ rest)

theorem steady_pure (value : α) : (pure value : Decoder α).Steady :=
  fun _ _ => .inr rfl

theorem steady_throw (fault : DecodeFault) : (throw fault : Decoder α).Steady :=
  fun _ _ => .inr rfl

theorem Steady.bind {first : Decoder α} {next : α → Decoder β} (hfirst : first.Steady)
    (hnext : ∀ value, (next value).Steady) : (first >>= next).Steady := by
  intro bytes rest
  rw [StateT.run_bind, StateT.run_bind]
  rcases hfirst bytes rest with hshort | hmore
  · exact .inl (by rw [hshort]; rfl)
  · rw [hmore]
    cases first.run bytes with
    | error fault => exact .inr rfl
    | ok result => exact hnext result.1 result.2 rest

theorem Steady.map {decoder : Decoder α} (hsteady : decoder.Steady) (image : α → β) :
    (image <$> decoder).Steady := by
  rw [map_eq_pure_bind]
  exact hsteady.bind fun value => steady_pure (image value)

theorem steady_byte : byte.Steady := by
  intro bytes rest
  cases bytes with
  | nil => exact .inl rfl
  | cons first others => exact .inr rfl

theorem steady_take (count : Nat) : (take count).Steady := by
  intro bytes rest
  rw [run_take, run_take]
  by_cases hcount : count ≤ bytes.length
  · have hmore : count ≤ (bytes ++ rest).length := by
      rw [List.length_append]
      omega
    rw [if_pos hcount, if_pos hmore, List.take_append_of_le_length hcount,
      List.drop_append_of_le_length hcount]
    exact .inr rfl
  · exact .inl (if_neg hcount)

theorem steady_times {item : Decoder α} (hitem : item.Steady) (count : Nat) :
    (times count item).Steady := by
  induction count with
  | zero => exact steady_pure []
  | succ count ih =>
      apply hitem.bind
      intro first
      apply ih.bind
      intro others
      exact steady_pure (first :: others)

/-- What has been read from some bytes is read from them whatever follows. -/
theorem Steady.run_append {decoder : Decoder α} (hsteady : decoder.Steady)
    {bytes left : List UInt8} {value : α} (hrun : decoder.run bytes = .ok (value, left))
    (rest : List UInt8) : decoder.run (bytes ++ rest) = .ok (value, left ++ rest) := by
  rcases hsteady bytes rest with hshort | hmore
  · rw [hrun] at hshort
    cases hshort
  · rw [hmore, hrun]
    rfl

/-- A piece of bytes that is cut off is not read at all: the decoder runs out of
bytes. -/
theorem Steady.run_of_truncated {decoder : Decoder α} (hsteady : decoder.Steady)
    {front tail : List UInt8} {value : α} (hreads : decoder.Reads (front ++ tail) value)
    (htail : tail ≠ []) : decoder.run front = .error .endOfBuffer := by
  rcases hsteady front tail with hshort | hmore
  · exact hshort
  · have hwhole := hreads []
    rw [List.append_nil, hmore] at hwhole
    obtain ⟨⟨_, left⟩, _, hleft⟩ := exists_of_map_eq_ok hwhole
    injection hleft with _ hrest
    exact absurd (List.append_eq_nil_iff.mp hrest).2 htail

end Decoder

open Decoder

theorem readGroups_steady (limit groups : Nat) : (readGroups limit groups).Steady := by
  induction groups with
  | zero =>
      apply steady_byte.bind
      intro last
      split
      · exact steady_pure last.toNat
      · exact steady_throw .unterminatedVarint
  | succ groups ih =>
      apply steady_byte.bind
      intro first
      split
      · exact steady_pure first.toNat
      · exact ih.bind fun rest => steady_pure (first.toNat - 128 + 128 * rest)

theorem readVarint_steady (width : Width) : (readVarint width).Steady :=
  readGroups_steady width.lastLimit width.fullGroups

theorem readWord32_steady : readWord32.Steady :=
  (readVarint_steady .word32).map UInt32.ofNat

theorem readWord64_steady : readWord64.Steady :=
  (readVarint_steady .word64).map UInt64.ofNat

theorem readText_steady : readText.Steady := by
  apply (readVarint_steady .word64).bind
  intro length
  apply (steady_take length).bind
  intro bytes
  cases ofUtf8? bytes with
  | none => exact steady_throw .invalidUtf8
  | some text => exact steady_pure text

theorem readSequence_steady {item : Decoder α} (hitem : item.Steady) :
    (readSequence item).Steady :=
  (readVarint_steady .word64).bind fun length => steady_times hitem length

theorem readOrdinal_steady (kinds : List α) : (readOrdinal kinds).Steady := by
  apply (readVarint_steady .word32).bind
  intro ordinal
  cases kinds[ordinal]? with
  | none => exact steady_throw .unknownOrdinal
  | some kind => exact steady_pure kind

theorem readNode_steady : readNode.Steady := by
  apply readWord64_steady.bind
  intro id
  apply (readOrdinal_steady NodeKind.all).bind
  intro kind
  apply readText_steady.bind
  intro contents
  apply readWord32_steady.bind
  intro startLine
  apply readWord32_steady.bind
  intro endLine
  apply readWord32_steady.bind
  intro startPosition
  apply readWord32_steady.bind
  intro endPosition
  exact steady_pure _

theorem readEdge_steady : readEdge.Steady := by
  apply readWord64_steady.bind
  intro source
  apply readWord64_steady.bind
  intro target
  apply (readOrdinal_steady EdgeKind.all).bind
  intro kind
  exact steady_pure _

theorem readGraph_steady : readGraph.Steady := by
  apply readText_steady.bind
  intro sourceFile
  apply (readSequence_steady readNode_steady).bind
  intro nodes
  apply (readSequence_steady readEdge_steady).bind
  intro edges
  exact steady_pure _

/-- The fault of a record that ends too early: it is looked at for its size, then for a
header, and then its payload runs out of bytes. -/
def truncationFault (front : List UInt8) : RecordFault :=
  if maxRecordBytes < front.length then .tooLarge front.length
  else if front.length < headerLength then .tooShort front.length
  else .badPayload .endOfBuffer

theorem splitHeader_of_short {record : List UInt8}
    (hshort : record.length < headerLength) :
    splitHeader record = .error (.tooShort record.length) := by
  rcases record with _ | ⟨a, _ | ⟨b, _ | ⟨c, _ | ⟨d, _ | ⟨version, payload⟩⟩⟩⟩⟩
  iterate 5 rfl
  simp only [List.length_cons, headerLength] at hshort
  omega

/-- The first part of a record is its header with the first part of its payload, unless
the header is not complete. -/
theorem exists_payload_of_truncated {payload front tail : List UInt8}
    (hrecord : magicBytes ++ currentVersion :: payload = front ++ tail)
    (hlong : headerLength ≤ front.length) :
    ∃ cut, front = magicBytes ++ currentVersion :: cut ∧ payload = cut ++ tail := by
  refine ⟨front.drop headerLength, ?_, ?_⟩
  · have htake := congrArg (List.take headerLength) hrecord
    rw [List.take_append_of_le_length hlong] at htake
    conv_lhs => rw [← List.take_append_drop headerLength front, ← htake]
    rfl
  · have hdrop := congrArg (List.drop headerLength) hrecord
    rwa [List.drop_append_of_le_length hlong] at hdrop

theorem readRecord_of_truncated {graph : Graph} (hgraph : graph.Addressable)
    {front tail : List UInt8} (hrecord : graph.toRecord = front ++ tail)
    (htail : tail ≠ []) : readRecord front = .error (truncationFault front) := by
  rw [truncationFault]
  by_cases hsize : maxRecordBytes < front.length
  · rw [if_pos hsize, readRecord_of_tooLarge hsize]
  · rw [if_neg hsize]
    by_cases hshort : front.length < headerLength
    · rw [if_pos hshort, readRecord, if_neg hsize, splitHeader_of_short hshort]
      rfl
    · rw [if_neg hshort]
      obtain ⟨cut, rfl, hpayload⟩ :=
        exists_payload_of_truncated hrecord (Nat.le_of_not_lt hshort)
      have hreads := readGraph_reads hgraph
      rw [hpayload] at hreads
      rw [readRecord_of_payload (Nat.le_of_not_lt hsize),
        readGraph_steady.run_of_truncated hreads htail]
      rfl

theorem readRecord_append {record : List UInt8} {parts : Graph}
    (hread : readRecord record = .ok parts) {rest : List UInt8}
    (hsize : (record ++ rest).length ≤ maxRecordBytes) :
    readRecord (record ++ rest) = .ok parts := by
  obtain ⟨_, payload, left, rfl, hrun⟩ := exists_payload_of_readRecord hread
  rw [List.append_assoc, List.cons_append] at hsize ⊢
  rw [readRecord_of_payload hsize, readGraph_steady.run_append hrun]
  rfl

/-- No record is the beginning of another. -/
theorem Graph.Addressable.eq_of_toRecord_prefix {graph other : Graph}
    (hgraph : graph.Addressable) (hother : other.Addressable)
    (hbegins : graph.toRecord <+: other.toRecord) : graph = other := by
  obtain ⟨tail, hrecord⟩ := hbegins
  have hpayload : writeGraph graph ++ tail = writeGraph other := by
    rw [toRecord, toRecord, List.append_assoc, List.append_cancel_left_eq] at hrecord
    exact (List.cons.inj hrecord).2
  have hread := readGraph_reads hgraph tail
  have hwhole := readGraph_reads hother []
  rw [List.append_nil, ← hpayload, hread] at hwhole
  injection hwhole with hsame
  exact congrArg Prod.fst hsame

namespace ArenaGraph

/-- A record tells by itself where it ends.  No part of it that is cut off is accepted.
An accepted record stays accepted, as the same graph, with any bytes behind it that do
not make it too large.  No record of a graph begins the record of another. -/
theorem records_delimit_themselves :
    (∀ graph : ArenaGraph, graph.toGraph.Addressable → ∀ front tail : List UInt8,
      graph.toRecord = front ++ tail → tail ≠ [] →
        ofRecord front = .error (truncationFault front).toFault) ∧
    (∀ (record : List UInt8) (graph : ArenaGraph), ofRecord record = .ok graph →
      ∀ rest : List UInt8, (record ++ rest).length ≤ maxRecordBytes →
        ofRecord (record ++ rest) = .ok graph) ∧
    (∀ graph other : ArenaGraph, graph.Consistent → other.Consistent →
      graph.toGraph.Addressable → other.toGraph.Addressable →
        graph.toRecord <+: other.toRecord → graph = other) := by
  refine ⟨?_, ?_, ?_⟩
  · intro graph hgraph front tail hrecord htail
    rw [ofRecord, readRecord_of_truncated hgraph hrecord htail]
    rfl
  · intro record graph haccepted rest hsize
    obtain ⟨hgraph, hread⟩ := readRecord_of_ofRecord haccepted
    rw [ofRecord, readRecord_append hread hsize]
    exact hgraph.ofParts_toGraph_eq_ok
  · intro graph other hgraph hother hlengths hotherLengths hbegins
    exact hgraph.eq_of_toGraph_eq hother
      (hlengths.eq_of_toRecord_prefix hotherLengths hbegins)

/-- A record of 30 bytes, cut off inside of a text and followed by a byte, next to the
record of its graph without the edge. -/
theorem records_delimit_themselves_of_edge :
    let node : Node := ⟨300, .log, "→", 1, 1, 0, 9⟩
    let bare : ArenaGraph := ⟨"A.java", .ofList [((300 : UInt64), node)], [300], []⟩
    let graph : ArenaGraph := { bare with edges := [⟨300, 300, .nextToken⟩] }
    let record := graph.toRecord
    record.length = 30 ∧
      ofRecord (record.take 18) = .error (RecordFault.badPayload .endOfBuffer).toFault ∧
      ofRecord (record ++ [7]) = .ok graph ∧ ¬ bare.toRecord <+: record := by
  intro node bare graph record
  obtain ⟨htruncated, hextended, hbegins⟩ := records_delimit_themselves
  have haccepted : ofRecord record = .ok graph := by
    decide +kernel
  have hbareAccepted : ofRecord bare.toRecord = .ok bare := by
    decide +kernel
  have haddressable {other : ArenaGraph}
      (hlength : (writeGraph other.toGraph).length < 2 ^ 64) :
      other.toGraph.Addressable := Graph.addressable_of_length_writeGraph_lt hlength
  refine ⟨by decide +kernel, ?_, hextended record graph haccepted [7] (by decide +kernel), ?_⟩
  · rw [htruncated graph (haddressable (by decide +kernel)) (record.take 18)
      (record.drop 18) (List.take_append_drop 18 record).symm (by decide +kernel)]
    decide +kernel
  · intro hbare
    have hsame := hbegins bare graph (readRecord_of_ofRecord hbareAccepted).1
      (readRecord_of_ofRecord haccepted).1 (haddressable (by decide +kernel))
      (haddressable (by decide +kernel)) hbare
    exact absurd (congrArg edges hsame) (by decide)

end ArenaGraph

end LogCorpus
