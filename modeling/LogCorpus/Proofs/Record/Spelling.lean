/-
Spellings of a value.

A decoder may accept several spellings of one value: an integer may be written
with more groups than it needs.  Whatever a decoder accepts, it takes a piece off
the front that it would read as the same value before any other bytes, and the
written form of the value is not longer than that piece.
-/
import LogCorpus.Proofs.Record.Reading
import LogCorpus.Proofs.Stateful

namespace LogCorpus

namespace Decoder

/-- Whenever the decoder succeeds, it has read a piece off the front, and value
and piece satisfy a condition. -/
def Ensures (decoder : Decoder α) (holds : α → List UInt8 → Prop) : Prop :=
  ∀ (bytes : List UInt8) (value : α) (rest : List UInt8),
    decoder.run bytes = .ok (value, rest) →
      ∃ piece, bytes = piece ++ rest ∧ decoder.Reads piece value ∧
        holds value piece

theorem Ensures.mono {decoder : Decoder α} {holds weaker : α → List UInt8 → Prop}
    (hensures : decoder.Ensures holds)
    (hweaker : ∀ value piece, holds value piece → weaker value piece) :
    decoder.Ensures weaker := by
  intro bytes value rest hrun
  obtain ⟨piece, hbytes, hreads, hholds⟩ := hensures bytes value rest hrun
  exact ⟨piece, hbytes, hreads, hweaker value piece hholds⟩

theorem ensures_pure {value : α} {holds : α → List UInt8 → Prop}
    (hholds : holds value []) : (pure value : Decoder α).Ensures holds := by
  intro bytes other rest hrun
  injection hrun with hrun
  injection hrun with hvalue hrest
  subst hvalue hrest
  exact ⟨[], rfl, reads_pure value, hholds⟩

theorem ensures_throw (fault : DecodeFault) (holds : α → List UInt8 → Prop) :
    (throw fault : Decoder α).Ensures holds := by
  intro bytes value rest hrun
  cases hrun

theorem Ensures.bind {first : Decoder α} {next : α → Decoder β}
    {holds : α → List UInt8 → Prop} {after : β → List UInt8 → Prop}
    (hfirst : first.Ensures holds)
    (hnext : ∀ value head, holds value head →
      (next value).Ensures fun result tail => after result (head ++ tail)) :
    (first >>= next).Ensures after := by
  intro bytes result rest hrun
  rw [StateT.run_bind] at hrun
  obtain ⟨⟨value, middle⟩, hvalue, hresult⟩ := exists_of_bind_eq_ok hrun
  obtain ⟨head, rfl, hhead, hholds⟩ := hfirst bytes value middle hvalue
  obtain ⟨tail, rfl, htail, hafter⟩ :=
    hnext value head hholds middle result rest hresult
  exact ⟨head ++ tail, by rw [List.append_assoc], hhead.bind htail, hafter⟩

theorem Ensures.map {decoder : Decoder α} {image : α → β}
    {holds : α → List UInt8 → Prop} {after : β → List UInt8 → Prop}
    (hensures : decoder.Ensures holds)
    (hafter : ∀ value piece, holds value piece → after (image value) piece) :
    (image <$> decoder).Ensures after := by
  rw [map_eq_pure_bind]
  apply hensures.bind
  intro value piece hholds
  apply ensures_pure
  rw [List.append_nil]
  exact hafter value piece hholds

theorem ensures_byte : byte.Ensures fun value piece => piece = [value] := by
  intro bytes value rest hrun
  cases bytes with
  | nil => cases hrun
  | cons first others =>
      injection hrun with hrun
      injection hrun with hvalue hrest
      subst hvalue hrest
      exact ⟨[first], rfl, reads_byte first, rfl⟩

theorem ensures_take (count : Nat) :
    (take count).Ensures fun value piece => value = piece ∧ piece.length = count := by
  intro bytes value rest hrun
  rw [run_take] at hrun
  by_cases hcount : count ≤ bytes.length
  · rw [if_pos hcount] at hrun
    injection hrun with hrun
    injection hrun with hvalue hrest
    subst hvalue hrest
    have hlength : (bytes.take count).length = count := List.length_take_of_le hcount
    have hreads := reads_take (bytes.take count)
    rw [hlength] at hreads
    exact ⟨bytes.take count, (List.take_append_drop count bytes).symm, hreads,
      rfl, hlength⟩
  · rw [if_neg hcount] at hrun
    cases hrun

/-- No spelling that the decoder accepts is shorter than the written form. -/
def Covers (decoder : Decoder α) (write : α → List UInt8) : Prop :=
  decoder.Ensures fun value piece => (write value).length ≤ piece.length

theorem ensures_times {item : Decoder α} {write : α → List UInt8}
    (hitem : item.Covers write) (count : Nat) :
    (times count item).Ensures fun items piece =>
      items.length = count ∧ (items.flatMap write).length ≤ piece.length := by
  induction count with
  | zero => exact ensures_pure ⟨rfl, Nat.le_refl 0⟩
  | succ count ih =>
      apply hitem.bind
      intro first head hfirst
      apply ih.bind
      intro others tail hothers
      apply ensures_pure
      rw [List.append_nil, List.flatMap_cons, List.length_append,
        List.length_append, List.length_cons]
      omega

end Decoder

open Decoder

/-- A number that is read fits the groups and the last byte, and is written with
at most as many groups. -/
theorem readGroups_ensures {limit : Nat} (groups : Nat) :
    (readGroups limit groups).Ensures fun number piece =>
      number < 128 ^ groups * (limit + 1) ∧
        (writeGroups groups number).length ≤ piece.length := by
  induction groups with
  | zero =>
      apply ensures_byte.bind
      rintro last _ rfl
      by_cases hlast : last.toNat ≤ limit
      · rw [if_pos hlast]
        apply ensures_pure
        exact ⟨by omega, Nat.le_refl 1⟩
      · rw [if_neg hlast]
        exact ensures_throw _ _
  | succ groups ih =>
      apply ensures_byte.bind
      rintro first _ rfl
      have hbound : 0 < 128 ^ groups * (limit + 1) :=
        Nat.mul_pos (Nat.pow_pos (by decide)) (Nat.succ_pos limit)
      rw [Nat.pow_succ, Nat.mul_right_comm]
      by_cases hsmall : first.toNat < 128
      · rw [if_pos hsmall]
        apply ensures_pure
        rw [writeGroups, if_pos hsmall]
        exact ⟨by omega, Nat.le_refl 1⟩
      · rw [if_neg hsmall]
        apply ih.bind
        rintro number tail ⟨hnumber, hlength⟩
        apply ensures_pure
        have hfirst := first.toNat_lt
        have hgroup : (first.toNat - 128 + 128 * number) / 128 = number := by omega
        rw [writeGroups]
        split
        · simp only [List.length_append, List.length_cons, List.length_nil]
          omega
        · rw [hgroup]
          simp only [List.length_append, List.length_cons, List.length_nil]
          omega

theorem readVarint_ensures (width : Width) :
    (readVarint width).Ensures fun number piece =>
      number < 2 ^ width.bits ∧ (writeVarint width number).length ≤ piece.length := by
  cases width with
  | word32 => exact readGroups_ensures 4
  | word64 => exact readGroups_ensures 9

theorem readWord32_covers : readWord32.Covers writeWord32 := by
  apply (readVarint_ensures .word32).map
  rintro number piece ⟨hnumber, hlength⟩
  rwa [writeWord32, UInt32.toNat_ofNat_of_lt' hnumber]

theorem readWord64_covers : readWord64.Covers writeWord64 := by
  apply (readVarint_ensures .word64).map
  rintro number piece ⟨hnumber, hlength⟩
  rwa [writeWord64, UInt64.toNat_ofNat_of_lt' hnumber]

theorem readText_covers : readText.Covers writeText := by
  apply (readVarint_ensures .word64).bind
  rintro length head ⟨_, hlength⟩
  apply (ensures_take length).bind
  rintro bytes _ ⟨rfl, hbytes⟩
  cases htext : ofUtf8? bytes with
  | none => exact ensures_throw _ _
  | some text =>
      apply ensures_pure
      rw [writeText, utf8_of_ofUtf8? htext, hbytes]
      simp only [List.length_append, List.length_nil]
      omega

theorem readSequence_covers {item : Decoder α} {write : α → List UInt8}
    (hitem : item.Covers write) :
    (readSequence item).Covers (writeSequence write) := by
  apply (readVarint_ensures .word64).bind
  rintro length head ⟨_, hlength⟩
  apply (ensures_times hitem length).mono
  rintro items tail ⟨hitems, htail⟩
  rw [writeSequence, hitems, List.length_append, List.length_append]
  omega

theorem readOrdinal_covers {kinds : List α} {ordinal : α → Nat}
    (hkinds : kinds.Nodup) (hordinal : ∀ kind, kinds[ordinal kind]? = some kind) :
    (readOrdinal kinds).Covers fun kind => writeVarint .word32 (ordinal kind) := by
  apply (readVarint_ensures .word32).bind
  rintro place head ⟨_, hlength⟩
  cases hkind : kinds[place]? with
  | none => exact ensures_throw _ _
  | some kind =>
      have hplace : place = ordinal kind :=
        (List.getElem?_inj (List.getElem?_eq_some_iff.mp hkind).1 hkinds).mp
          (hkind.trans (hordinal kind).symm)
      subst hplace
      apply ensures_pure
      rwa [List.append_nil]

theorem readNode_covers : readNode.Covers writeNode := by
  apply readWord64_covers.bind
  intro id idPiece hid
  apply (readOrdinal_covers (by decide) NodeKind.all_getElem?_ordinal).bind
  intro kind kindPiece (hkind : (writeVarint .word32 kind.ordinal).length ≤ _)
  apply readText_covers.bind
  intro contents contentsPiece hcontents
  apply readWord32_covers.bind
  intro startLine startLinePiece hstartLine
  apply readWord32_covers.bind
  intro endLine endLinePiece hendLine
  apply readWord32_covers.bind
  intro startPosition startPositionPiece hstartPosition
  apply readWord32_covers.bind
  intro endPosition endPositionPiece hendPosition
  apply ensures_pure
  simp only [writeNode, List.length_append, List.length_nil]
  omega

theorem readEdge_covers : readEdge.Covers writeEdge := by
  apply readWord64_covers.bind
  intro source sourcePiece hsource
  apply readWord64_covers.bind
  intro target targetPiece htarget
  apply (readOrdinal_covers (by decide) EdgeKind.all_getElem?_ordinal).bind
  intro kind kindPiece (hkind : (writeVarint .word32 kind.ordinal).length ≤ _)
  apply ensures_pure
  simp only [writeEdge, List.length_append, List.length_nil]
  omega

theorem readGraph_covers : readGraph.Covers writeGraph := by
  apply readText_covers.bind
  intro sourceFile sourceFilePiece hsourceFile
  apply (readSequence_covers readNode_covers).bind
  intro nodes nodesPiece hnodes
  apply (readSequence_covers readEdge_covers).bind
  intro edges edgesPiece hedges
  apply ensures_pure
  simp only [writeGraph, List.length_append, List.length_nil]
  omega

end LogCorpus
