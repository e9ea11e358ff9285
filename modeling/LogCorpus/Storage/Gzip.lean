/-
Gzip members with stored blocks.

`gzip` wraps bytes into a member whose blocks hold the bytes as they are;
`gunzip?` takes such a member apart again and looks at its checksum and length.
-/

namespace LogCorpus

/-- The `count` low bytes of a number, the least significant first. -/
def littleEndian : Nat → Nat → List UInt8
  | 0, _ => []
  | count + 1, number => .ofNat number :: littleEndian count (number / 256)

@[simp] theorem length_littleEndian (count number : Nat) :
    (littleEndian count number).length = count := by
  induction count generalizing number with
  | zero => rfl
  | succ count ih => simp [littleEndian, ih]

/-- The number with these bytes, the least significant first. -/
def ofLittleEndian : List UInt8 → Nat
  | [] => 0
  | byte :: rest => byte.toNat + 256 * ofLittleEndian rest

/-- One bit of the checksum's division. -/
def crcBit (crc : UInt32) : UInt32 :=
  if crc &&& 1 = 1 then (crc >>> 1) ^^^ 0xEDB88320 else crc >>> 1

/-- One byte of the checksum's division. -/
def crcByte (crc : UInt32) (byte : UInt8) : UInt32 :=
  Nat.repeat crcBit 8 (crc ^^^ byte.toUInt32)

/-- The checksum of bytes. -/
def crc32 (bytes : List UInt8) : UInt32 :=
  ~~~(bytes.foldl crcByte 0xFFFFFFFF)

/-- The largest number of bytes in a stored block. -/
def maxBlockBytes : Nat :=
  65535

/-- A stored block: whether it is the last one, its length, the complement of
its length, and its bytes. -/
def storedBlock (last : Bool) (bytes : List UInt8) : List UInt8 :=
  (if last then 1 else 0) ::
    (littleEndian 2 bytes.length ++
      littleEndian 2 (maxBlockBytes - bytes.length) ++ bytes)

/-- Bytes as stored blocks, all full but the last one. -/
def storedBlocks (bytes : List UInt8) : List UInt8 :=
  if bytes.length ≤ maxBlockBytes then storedBlock true bytes
  else
    storedBlock false (bytes.take maxBlockBytes) ++
      storedBlocks (bytes.drop maxBlockBytes)
termination_by bytes.length
decreasing_by
  simp only [List.length_drop, maxBlockBytes] at *
  omega

/-- The start of a member: no name, no time, an unknown system. -/
def gzipHeader : List UInt8 :=
  [0x1F, 0x8B, 8, 0, 0, 0, 0, 0, 0, 0xFF]

/-- The end of a member: checksum and length. -/
def gzipTrailer (bytes : List UInt8) : List UInt8 :=
  littleEndian 4 (crc32 bytes).toNat ++ littleEndian 4 bytes.length

/-- Wrap bytes into a member. -/
def gzip (bytes : List UInt8) : List UInt8 :=
  gzipHeader ++ storedBlocks bytes ++ gzipTrailer bytes

/-- The bytes of a stored block, what follows it, and whether it is the last
one. -/
def readBlock? : List UInt8 → Option (Bool × List UInt8 × List UInt8)
  | flag :: rest => do
      let length := ofLittleEndian (rest.take 2)
      let body := rest.drop 4
      guard (flag ≤ 1 ∧ (rest.drop 2).take 2 =
        littleEndian 2 (maxBlockBytes - length) ∧ length ≤ body.length)
      return (flag = 1, body.take length, body.drop length)
  | [] => none

/-- The bytes of all blocks and what follows the last one.  Each block takes
fuel. -/
def readBlocks? : Nat → List UInt8 → Option (List UInt8 × List UInt8)
  | 0, _ => none
  | fuel + 1, stream => do
      let (last, bytes, rest) ← readBlock? stream
      if last then return (bytes, rest)
      else
        let (more, rest) ← readBlocks? fuel rest
        return (bytes ++ more, rest)

/-- The bytes in a member. -/
def gunzip? (archive : List UInt8) : Option (List UInt8) := do
  guard (archive.take gzipHeader.length = gzipHeader)
  let (bytes, rest) ←
    readBlocks? archive.length (archive.drop gzipHeader.length)
  guard (rest = gzipTrailer bytes)
  return bytes

example : crc32 (List.range' 0x31 9 |>.map UInt8.ofNat) = 0xCBF43926 := by
  decide +kernel

example : gunzip? (gzip [1, 2, 3]) = some [1, 2, 3] := by decide +kernel

end LogCorpus
