/-
Text as bytes.

Text is stored in UTF-8.  `ofUtf8?` reads back what `utf8` writes and accepts
nothing else.  `lossyText` reads any bytes: where they are no UTF-8, one replacement
character stands for as many of them as a character could start with.
-/

namespace LogCorpus

/-- The UTF-8 bytes of a text. -/
def utf8 (text : String) : List UInt8 :=
  text.toByteArray.data.toList

/-- The text with these UTF-8 bytes, if they are valid. -/
def ofUtf8? (bytes : List UInt8) : Option String :=
  String.fromUTF8? ⟨bytes.toArray⟩

theorem ofUtf8?_utf8 (text : String) : ofUtf8? (utf8 text) = some text := by
  simp [ofUtf8?, utf8, String.fromUTF8?, String.fromUTF8, text.isValidUTF8]

theorem utf8_of_ofUtf8? {bytes : List UInt8} {text : String}
    (hread : ofUtf8? bytes = some text) : utf8 text = bytes := by
  simp only [ofUtf8?, String.fromUTF8?] at hread
  split at hread
  · injection hread with htext
    subst htext
    simp [utf8, String.fromUTF8]
  · exact absurd hread (by simp)

/-! ### Any bytes -/

/-- How many bytes follow the leading byte of a character, and the least and the
largest that the first of them can be. -/
def following? (lead : Nat) : Option (Nat × Nat × Nat) :=
  if lead < 0x80 then some (0, 0x80, 0xbf)
  else if lead < 0xc2 then none
  else if lead < 0xe0 then some (1, 0x80, 0xbf)
  else if lead = 0xe0 then some (2, 0xa0, 0xbf)
  else if lead = 0xed then some (2, 0x80, 0x9f)
  else if lead < 0xf0 then some (2, 0x80, 0xbf)
  else if lead = 0xf0 then some (3, 0x90, 0xbf)
  else if lead < 0xf4 then some (3, 0x80, 0xbf)
  else if lead = 0xf4 then some (3, 0x80, 0x8f)
  else none

/-- The bytes at the start, at most so many, that can follow a leading byte: the first
of them in a range, the others in the range of all such bytes. -/
def trailing : Nat → Nat → Nat → List UInt8 → List UInt8
  | count + 1, least, largest, byte :: rest =>
      if least ≤ byte.toNat ∧ byte.toNat ≤ largest then
        byte :: trailing count 0x80 0xbf rest
      else []
  | _, _, _, _ => []

/-- A byte and what follows it as far as both are the start of a character. -/
def characterStart (lead : UInt8) (rest : List UInt8) : List UInt8 :=
  match following? lead.toNat with
  | some (count, least, largest) => lead :: trailing count least largest rest
  | none => [lead]

/-- The text of some bytes, or a replacement character if they are none. -/
def textOrReplacement (bytes : List UInt8) : List Char :=
  match ofUtf8? bytes with
  | some text => text.toList
  | none => ['\uFFFD']

/-- The characters of bytes behind some that have been read. -/
def lossyFrom : Nat → List UInt8 → List Char
  | _, [] => []
  | 0, lead :: rest =>
      let start := characterStart lead rest
      textOrReplacement start ++ lossyFrom (start.length - 1) rest
  | skipped + 1, _ :: rest => lossyFrom skipped rest

/-- The text of any bytes. -/
def lossyText (bytes : List UInt8) : String :=
  String.ofList (lossyFrom 0 bytes)

example : lossyText [0x61, 0xff, 0xe2, 0x82, 0x62, 0xc3, 0xa9] =
    "a\uFFFD\uFFFDb\u00E9" := by
  decide +kernel

end LogCorpus
