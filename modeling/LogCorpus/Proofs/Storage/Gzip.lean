/-
Packing and unpacking.

What is packed into a member comes out of it again: every stored block is read
back with what follows it, so all blocks of a member are, and the end of the
member is the one that belongs to its bytes.
-/
import LogCorpus.Proofs.Stateful
import LogCorpus.Storage.Gzip
import Mathlib.Algebra.Group.Nat.Defs

namespace LogCorpus

theorem ofLittleEndian_littleEndian (count number : Nat) :
    ofLittleEndian (littleEndian count number) = number % 256 ^ count := by
  induction count generalizing number with
  | zero => rw [littleEndian, ofLittleEndian, Nat.pow_zero, Nat.mod_one]
  | succ count ih =>
      rw [littleEndian, ofLittleEndian, ih, Nat.pow_succ' (m := 256),
        Nat.mod_mul, UInt8.toNat_ofNat']

/-- A stored block is taken off what follows it. -/
theorem readBlock?_storedBlock (last : Bool) {bytes : List UInt8}
    (hbytes : bytes.length ≤ maxBlockBytes) (rest : List UInt8) :
    readBlock? (storedBlock last bytes ++ rest) = some (last, bytes, rest) := by
  have hlength : ofLittleEndian (littleEndian 2 bytes.length) = bytes.length := by
    rw [ofLittleEndian_littleEndian]
    apply Nat.mod_eq_of_lt
    rw [maxBlockBytes] at hbytes
    omega
  have hflag : (if last then (1 : UInt8) else 0) ≤ 1 := by
    cases last <;> decide
  have hlast : decide ((if last then (1 : UInt8) else 0) = 1) = last := by
    cases last <;> decide
  simp only [storedBlock, List.cons_append, List.append_assoc]
  rw [readBlock?]
  have hfront : (littleEndian 2 bytes.length ++
      (littleEndian 2 (maxBlockBytes - bytes.length) ++ (bytes ++ rest))).take 2 =
        littleEndian 2 bytes.length :=
    List.take_left' (length_littleEndian 2 _)
  have hdrop : (littleEndian 2 bytes.length ++
      (littleEndian 2 (maxBlockBytes - bytes.length) ++ (bytes ++ rest))).drop 2 =
        littleEndian 2 (maxBlockBytes - bytes.length) ++ (bytes ++ rest) :=
    List.drop_left' (length_littleEndian 2 _)
  have hcomplement : (littleEndian 2 (maxBlockBytes - bytes.length) ++
      (bytes ++ rest)).take 2 = littleEndian 2 (maxBlockBytes - bytes.length) :=
    List.take_left' (length_littleEndian 2 _)
  have hbody : (littleEndian 2 bytes.length ++
      (littleEndian 2 (maxBlockBytes - bytes.length) ++ (bytes ++ rest))).drop 4 =
        bytes ++ rest := by
    rw [← List.drop_drop (i := 2) (j := 2), hdrop]
    exact List.drop_left' (length_littleEndian 2 _)
  rw [hfront, hdrop, hcomplement, hbody, hlength, hlast, List.take_left,
    List.drop_left, guard_eq_some ⟨hflag, rfl, by simp⟩]
  rfl

/-- All stored blocks of some bytes are taken off what follows them. -/
theorem readBlocks?_storedBlocks {bytes : List UInt8} {fuel : Nat}
    (hfuel : bytes.length < fuel) (rest : List UInt8) :
    readBlocks? fuel (storedBlocks bytes ++ rest) = some (bytes, rest) := by
  induction bytes using storedBlocks.induct generalizing fuel with
  | case1 bytes hshort =>
      obtain ⟨fuel, rfl⟩ := Nat.exists_eq_add_one_of_ne_zero (by omega : fuel ≠ 0)
      rw [storedBlocks, if_pos hshort, readBlocks?, readBlock?_storedBlock true hshort]
      rfl
  | case2 bytes hlong ih =>
      obtain ⟨fuel, rfl⟩ := Nat.exists_eq_add_one_of_ne_zero (by omega : fuel ≠ 0)
      have hblock : (bytes.take maxBlockBytes).length ≤ maxBlockBytes :=
        List.length_take_le _ _
      have hmore : (bytes.drop maxBlockBytes).length < fuel := by
        rw [List.length_drop]
        have : 0 < maxBlockBytes := by decide
        omega
      rw [storedBlocks, if_neg hlong, readBlocks?, List.append_assoc,
        readBlock?_storedBlock false hblock]
      simp only [bind, Option.bind, Bool.false_eq_true, if_false, ih hmore]
      change some (bytes.take maxBlockBytes ++ bytes.drop maxBlockBytes, rest) = _
      rw [List.take_append_drop]

theorem length_le_length_storedBlocks (bytes : List UInt8) :
    bytes.length ≤ (storedBlocks bytes).length := by
  induction bytes using storedBlocks.induct with
  | case1 bytes hshort =>
      rw [storedBlocks, if_pos hshort, storedBlock]
      simp only [List.length_cons, List.length_append]
      omega
  | case2 bytes hlong ih =>
      rw [storedBlocks, if_neg hlong, storedBlock]
      rw [List.length_drop] at ih
      simp only [List.length_cons, List.length_append, List.length_take]
      omega

/-- Packing loses nothing. -/
theorem gunzip?_gzip (bytes : List UInt8) : gunzip? (gzip bytes) = some bytes := by
  have hheader : (gzip bytes).take gzipHeader.length = gzipHeader := by
    rw [gzip, List.append_assoc, List.take_left]
  have hblocks : (gzip bytes).drop gzipHeader.length =
      storedBlocks bytes ++ gzipTrailer bytes := by
    rw [gzip, List.append_assoc, List.drop_left]
  have hfuel : bytes.length < (gzip bytes).length := by
    have hstored := length_le_length_storedBlocks bytes
    rw [gzip, List.length_append, List.length_append]
    have : 0 < gzipHeader.length := by decide
    omega
  rw [gunzip?, hheader, hblocks, readBlocks?_storedBlocks hfuel, guard_eq_some rfl]
  change ((guard (gzipTrailer bytes = gzipTrailer bytes) : Option Unit) >>= _) = _
  rw [guard_eq_some rfl]
  rfl

end LogCorpus
