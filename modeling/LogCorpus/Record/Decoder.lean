/-
Decoders: readers that take a value off the front of a byte sequence.

A decoder returns its value with the bytes that it did not use, or the cause
for which it stopped.
-/

namespace LogCorpus

/-- The cause for which a payload cannot be decoded. -/
inductive DecodeFault where
  /-- More bytes are needed than there are. -/
  | endOfBuffer
  /-- An integer goes on past its last byte or does not fit its width. -/
  | unterminatedVarint
  /-- The bytes of a text are not UTF-8. -/
  | invalidUtf8
  /-- An ordinal belongs to no kind. -/
  | unknownOrdinal
deriving Repr, DecidableEq

/-- The wording of a cause. -/
def DecodeFault.message : DecodeFault → String
  | endOfBuffer => "Hit the end of buffer, expected more data"
  | unterminatedVarint =>
      "Found a varint that didn't terminate. " ++
        "Is the usize too big for this platform?"
  | invalidUtf8 => "Tried to parse invalid utf-8"
  | unknownOrdinal => "Serde Deserialization Error"

/-- A reader of values from the front of a byte sequence. -/
abbrev Decoder := StateT (List UInt8) (Except DecodeFault)

namespace Decoder

/-- The next byte. -/
def byte : Decoder UInt8 := fun bytes =>
  match bytes with
  | [] => .error .endOfBuffer
  | first :: rest => .ok (first, rest)

/-- The next `count` bytes. -/
def take (count : Nat) : Decoder (List UInt8) := fun bytes =>
  let (head, rest) := bytes.splitAt count
  if head.length = count then .ok (head, rest) else .error .endOfBuffer

/-- As many values as `count` says, one after the other. -/
def times (count : Nat) (item : Decoder α) : Decoder (List α) :=
  match count with
  | 0 => pure []
  | count + 1 => do
      let first ← item
      let rest ← times count item
      return first :: rest

end Decoder

end LogCorpus
