/-
Variable-length integers.

An integer is written in groups of seven bits, the least significant first; the
high bit of a byte tells that another group follows.  The writer uses the fewest
groups.  The reader also accepts longer spellings, up to the width's last byte,
which may hold only the bits that are left.
-/
import LogCorpus.Record.Decoder

namespace LogCorpus

/-- The two widths of integers in records. -/
inductive Width where
  | word32
  | word64
deriving Repr, DecidableEq

namespace Width

/-- The number of bits of an integer of this width. -/
def bits : Width → Nat
  | word32 => 32
  | word64 => 64

/-- The number of full groups before the last byte. -/
def fullGroups : Width → Nat
  | word32 => 4
  | word64 => 9

/-- The largest value of the last byte. -/
def lastLimit : Width → Nat
  | word32 => 15
  | word64 => 1

end Width

/-- Write a number in at most one more group than `groups`. -/
def writeGroups : Nat → Nat → List UInt8
  | 0, number => [UInt8.ofNat number]
  | groups + 1, number =>
      if number < 128 then [UInt8.ofNat number]
      else UInt8.ofNat (number % 128 + 128) :: writeGroups groups (number / 128)

/-- Read at most `groups` full groups and, if none of them ends the number, a
last byte up to `limit`. -/
def readGroups (limit : Nat) : Nat → Decoder Nat
  | 0 => do
      let last ← Decoder.byte
      if last.toNat ≤ limit then return last.toNat
      else throw .unterminatedVarint
  | groups + 1 => do
      let first ← Decoder.byte
      if first.toNat < 128 then return first.toNat
      let rest ← readGroups limit groups
      return first.toNat - 128 + 128 * rest

/-- The written form of an integer. -/
def writeVarint (width : Width) (number : Nat) : List UInt8 :=
  writeGroups width.fullGroups number

/-- Read an integer. -/
def readVarint (width : Width) : Decoder Nat :=
  readGroups width.lastLimit width.fullGroups

example : writeVarint .word32 300 = [172, 2] := by decide +kernel

end LogCorpus
