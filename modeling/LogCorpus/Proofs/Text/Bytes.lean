/-
Bytes read as text.

A character is stored as a leading byte, which tells how many others follow it, and
these, six bits in each.  So the characters of a text are found again one after the
other, and reading any bytes gives back the text if they are those of one.  A
replacement character stands in what is read from all other bytes.
-/
import LogCorpus.Text.Bytes
import Mathlib.Data.String.Basic

namespace LogCorpus

/-! ### Characters -/

theorem val_toNat_lt (c : Char) :
    c.val.toNat < 0xd800 ∨ 0xdfff < c.val.toNat ∧ c.val.toNat < 0x110000 :=
  c.valid

/-- A byte that follows the leading one: six bits of a character. -/
def sixBits (value : Nat) : UInt8 :=
  .ofNat (value % 64 + 0x80)

theorem toNat_ofNat_of_lt {value : Nat} (hvalue : value < 256) :
    (UInt8.ofNat value).toNat = value := by
  rw [UInt8.toNat_ofNat', Nat.mod_eq_of_lt hvalue]

theorem toNat_sixBits (value : Nat) : (sixBits value).toNat = value % 64 + 0x80 :=
  toNat_ofNat_of_lt (by omega)

/-- Bits in the range of all bytes that follow. -/
theorem trailing_sixBits (count value : Nat) (rest : List UInt8) :
    trailing (count + 1) 0x80 0xbf (sixBits value :: rest) =
      sixBits value :: trailing count 0x80 0xbf rest := by
  have hbits := toNat_sixBits value
  rw [trailing, if_pos (by omega)]

/-- The first of two following bytes rules out characters that need less of them, and
those between the two ranges of characters. -/
theorem exists_following?_two (value : Nat) (hsmall : value ≤ 0xffff)
    (hlarge : 0x7ff < value) (hvalid : value < 0xd800 ∨ 0xdfff < value) :
    ∃ least largest, following? (value / 64 / 64 % 16 + 0xe0) = some (2, least, largest) ∧
      least ≤ value / 64 % 64 + 0x80 ∧ value / 64 % 64 + 0x80 ≤ largest := by
  by_cases hlow : value < 0x1000
  · have hlead : value / 64 / 64 % 16 = 0 := by omega
    exact ⟨0xa0, 0xbf, by rw [hlead]; rfl, by omega, by omega⟩
  by_cases hgap : value / 0x1000 = 0xd
  · have hlead : value / 64 / 64 % 16 = 0xd := by omega
    exact ⟨0x80, 0x9f, by rw [hlead]; rfl, by omega, by omega⟩
  · exact ⟨0x80, 0xbf, by grind [following?], by omega, by omega⟩

/-- The first of three following bytes rules out characters that need less of them, and
those that are too large. -/
theorem exists_following?_three (value : Nat) (hlarge : 0xffff < value)
    (hvalid : value < 0x110000) :
    ∃ least largest,
      following? (value / 64 / 64 / 64 % 8 + 0xf0) = some (3, least, largest) ∧
        least ≤ value / 64 / 64 % 64 + 0x80 ∧ value / 64 / 64 % 64 + 0x80 ≤ largest := by
  by_cases hlow : value < 0x40000
  · have hlead : value / 64 / 64 / 64 % 8 = 0 := by omega
    exact ⟨0x90, 0xbf, by rw [hlead]; rfl, by omega, by omega⟩
  by_cases hhigh : value < 0x100000
  · exact ⟨0x80, 0xbf, by grind [following?], by omega, by omega⟩
  · have hlead : value / 64 / 64 / 64 % 8 = 4 := by omega
    exact ⟨0x80, 0x8f, by rw [hlead]; rfl, by omega, by omega⟩

theorem characterStart_eq {lead count least largest : Nat} (hlead : lead < 256)
    (hfollowing : following? lead = some (count, least, largest)) (rest : List UInt8) :
    characterStart (.ofNat lead) rest =
      .ofNat lead :: trailing count least largest rest := by
  rw [characterStart, toNat_ofNat_of_lt hlead, hfollowing]

/-- A character is found where it starts, whatever follows it. -/
theorem characterStart_utf8EncodeChar (c : Char) (rest : List UInt8) :
    ∃ lead others, String.utf8EncodeChar c = lead :: others ∧
      characterStart lead (others ++ rest) = String.utf8EncodeChar c := by
  have hvalid := val_toNat_lt c
  simp only [String.utf8EncodeChar]
  generalize c.val.toNat = value at hvalid
  split
  · refine ⟨_, [], rfl, ?_⟩
    rw [characterStart_eq (by omega) (if_pos (by omega))]
    rfl
  split
  · have hfollowing : following? (value / 64 % 32 + 0xc0) = some (1, 0x80, 0xbf) := by
      grind [following?]
    refine ⟨_, _, rfl, ?_⟩
    rw [characterStart_eq (by omega) hfollowing]
    change _ :: trailing 1 0x80 0xbf (sixBits value :: rest) = _
    rw [trailing_sixBits]
    rfl
  split
  · obtain ⟨least, largest, hfollowing, hleast, hlargest⟩ :=
      exists_following?_two value (by omega) (by omega) (by omega)
    have hlead : value / 4096 % 16 = value / 64 / 64 % 16 := by omega
    refine ⟨_, _, rfl, ?_⟩
    rw [hlead, characterStart_eq (by omega) hfollowing]
    change _ :: trailing 2 _ _ (sixBits (value / 64) :: sixBits value :: rest) = _
    rw [trailing, toNat_sixBits, if_pos ⟨hleast, hlargest⟩, trailing_sixBits]
    rfl
  · obtain ⟨least, largest, hfollowing, hleast, hlargest⟩ :=
      exists_following?_three value (by omega) (by omega)
    have hlead : value / 262144 % 8 = value / 64 / 64 / 64 % 8 := by omega
    have hsecond : value / 4096 % 64 = value / 64 / 64 % 64 := by omega
    refine ⟨_, _, rfl, ?_⟩
    rw [hlead, hsecond, characterStart_eq (by omega) hfollowing]
    change _ :: trailing 3 _ _ (sixBits (value / 64 / 64) :: sixBits (value / 64) ::
      sixBits value :: rest) = _
    rw [trailing, toNat_sixBits, if_pos ⟨hleast, hlargest⟩, trailing_sixBits,
      trailing_sixBits]
    rfl

/-! ### Texts -/

theorem utf8_eq (text : String) : utf8 text = text.toList.flatMap String.utf8EncodeChar := by
  conv_lhs => rw [← String.ofList_toList (s := text)]
  rw [utf8, String.toByteArray_ofList, List.utf8Encode]
  simp

theorem utf8_injective : Function.Injective utf8 := by
  intro text other heq
  have htext := ofUtf8?_utf8 text
  rw [heq, ofUtf8?_utf8] at htext
  exact (Option.some_inj.mp htext).symm

theorem length_utf8 (text : String) : (utf8 text).length = text.utf8ByteSize :=
  rfl

/-- The bytes of a character of a text are in those of the text. -/
theorem mem_utf8_of_mem {text : String} {c : Char} (hc : c ∈ text.toList) {byte : UInt8}
    (hbyte : byte ∈ String.utf8EncodeChar c) : byte ∈ utf8 text := by
  rw [utf8_eq]
  exact List.mem_flatMap.mpr ⟨c, hc, hbyte⟩

theorem textOrReplacement_utf8EncodeChar (c : Char) :
    textOrReplacement (String.utf8EncodeChar c) = [c] := by
  have hbytes : String.utf8EncodeChar c = utf8 (String.singleton c) := by
    rw [utf8_eq]
    simp
  rw [textOrReplacement, hbytes, ofUtf8?_utf8]
  simp

theorem lossyFrom_drop (skipped : Nat) (bytes : List UInt8) :
    lossyFrom skipped bytes = lossyFrom 0 (bytes.drop skipped) := by
  induction bytes generalizing skipped with
  | nil => cases skipped <;> rfl
  | cons byte rest ih =>
      cases skipped with
      | zero => rfl
      | succ skipped => rw [lossyFrom, ih, List.drop_succ_cons]

/-- The characters of a text are read one after the other. -/
theorem lossyFrom_utf8EncodeChar (c : Char) (rest : List UInt8) :
    lossyFrom 0 (String.utf8EncodeChar c ++ rest) = c :: lossyFrom 0 rest := by
  obtain ⟨lead, others, hchar, hstart⟩ := characterStart_utf8EncodeChar c rest
  rw [hchar, List.cons_append, lossyFrom, hstart, textOrReplacement_utf8EncodeChar,
    lossyFrom_drop, hchar]
  simp

/-- What is read from the bytes of a text is the text. -/
theorem lossyText_utf8 (text : String) : lossyText (utf8 text) = text := by
  have hchars (chars : List Char) :
      lossyFrom 0 (chars.flatMap String.utf8EncodeChar) = chars := by
    induction chars with
    | nil => rfl
    | cons c rest ih => rw [List.flatMap_cons, lossyFrom_utf8EncodeChar, ih]
  rw [lossyText, utf8_eq, hchars, String.ofList_toList]

/-! ### Other bytes -/

theorem trailing_prefix (count least largest : Nat) (bytes : List UInt8) :
    trailing count least largest bytes <+: bytes := by
  induction bytes generalizing count least largest with
  | nil => cases count <;> exact List.nil_prefix
  | cons byte rest ih =>
      cases count with
      | zero => exact List.nil_prefix
      | succ count =>
          rw [trailing]
          split
          · exact (List.prefix_cons_inj byte).mpr (ih _ _ _)
          · exact List.nil_prefix

theorem exists_characterStart_eq_cons (lead : UInt8) (rest : List UInt8) :
    ∃ others, others <+: rest ∧ characterStart lead rest = lead :: others := by
  rw [characterStart]
  split
  · exact ⟨_, trailing_prefix _ _ _ rest, rfl⟩
  · exact ⟨[], List.nil_prefix, rfl⟩

/-- What is read at one place, and behind it. -/
theorem lossyFrom_of_characterStart {lead : UInt8} {others behind : List UInt8}
    (hstart : characterStart lead (others ++ behind) = lead :: others) :
    lossyFrom 0 (lead :: (others ++ behind)) =
      textOrReplacement (lead :: others) ++ lossyFrom 0 behind := by
  rw [lossyFrom, hstart, lossyFrom_drop]
  simp

/-- Bytes are read piece by piece, each piece a byte and others that go with it. -/
@[elab_as_elim]
theorem piece_induction {motive : List UInt8 → Prop} (nil : motive [])
    (piece : ∀ lead others behind,
      characterStart lead (others ++ behind) = lead :: others →
        motive behind → motive (lead :: (others ++ behind)))
    (bytes : List UInt8) : motive bytes := by
  induction hlength : bytes.length using Nat.strong_induction_on generalizing bytes with
  | _ length ih =>
      cases bytes with
      | nil => exact nil
      | cons lead rest =>
          obtain ⟨others, ⟨behind, rfl⟩, hstart⟩ := exists_characterStart_eq_cons lead rest
          refine piece lead others behind hstart (ih _ ?_ behind rfl)
          rw [← hlength, List.length_cons, List.length_append]
          omega

theorem utf8EncodeChar_of_textOrReplacement {bytes : List UInt8}
    (hnone : '\uFFFD' ∉ textOrReplacement bytes) :
    (textOrReplacement bytes).flatMap String.utf8EncodeChar = bytes := by
  rw [textOrReplacement] at hnone ⊢
  cases hread : ofUtf8? bytes with
  | none => simp [hread] at hnone
  | some text => rw [← utf8_eq, utf8_of_ofUtf8? hread]

/-- Bytes that are read without a replacement character are those of what is read. -/
theorem utf8_lossyText {bytes : List UInt8} (hnone : '\uFFFD' ∉ (lossyText bytes).toList) :
    utf8 (lossyText bytes) = bytes := by
  rw [lossyText, String.toList_ofList] at hnone
  rw [utf8_eq, lossyText, String.toList_ofList]
  induction bytes using piece_induction with
  | nil => rfl
  | piece lead others behind hstart ih =>
      rw [lossyFrom_of_characterStart hstart] at hnone ⊢
      rw [List.mem_append, not_or] at hnone
      rw [List.flatMap_append, utf8EncodeChar_of_textOrReplacement hnone.1, ih hnone.2,
        List.cons_append]

/-- The bytes of a character that is read, and no replacement, are among those it is
read from. -/
theorem mem_of_mem_lossyText {bytes : List UInt8} {c : Char}
    (hc : c ∈ (lossyText bytes).toList) (hne : c ≠ '\uFFFD') {byte : UInt8}
    (hbyte : byte ∈ String.utf8EncodeChar c) : byte ∈ bytes := by
  rw [lossyText, String.toList_ofList] at hc
  induction bytes using piece_induction with
  | nil => exact absurd hc List.not_mem_nil
  | piece lead others behind hstart ih =>
      rw [lossyFrom_of_characterStart hstart, List.mem_append, textOrReplacement] at hc
      rw [← List.cons_append, List.mem_append]
      rcases hc with hfirst | hbehind
      · left
        cases htext : ofUtf8? (lead :: others) with
        | none => simp [htext, hne] at hfirst
        | some text =>
            rw [htext] at hfirst
            rw [← utf8_of_ofUtf8? htext]
            exact mem_utf8_of_mem hfirst hbyte
      · exact .inr (ih hbehind)

/-- No character goes on over a byte that can be one alone. -/
theorem trailing_append_cons {byte : UInt8} (hbyte : byte.toNat < 0x80)
    {count least largest : Nat} (hleast : 0x80 ≤ least) (front rest : List UInt8) :
    trailing count least largest (front ++ byte :: rest) =
      trailing count least largest front := by
  induction front generalizing count least largest with
  | nil =>
      cases count with
      | zero => rfl
      | succ count =>
          rw [List.nil_append, trailing, if_neg (by omega)]
          rfl
  | cons head front ih =>
      cases count with
      | zero => rfl
      | succ count => rw [List.cons_append, trailing, trailing, ih (by omega)]

theorem characterStart_append_cons {byte : UInt8} (hbyte : byte.toNat < 0x80)
    (lead : UInt8) (front rest : List UInt8) :
    characterStart lead (front ++ byte :: rest) = characterStart lead front := by
  rw [characterStart, characterStart]
  cases hfollowing : following? lead.toNat with
  | none => rfl
  | some range =>
      obtain ⟨count, least, largest⟩ := range
      have hleast : 0x80 ≤ least := by
        grind [following?]
      simp only [trailing_append_cons hbyte hleast]

/-- Bytes are read apart on both sides of one that can be a character alone. -/
theorem lossyFrom_append_cons {byte : UInt8} (hbyte : byte.toNat < 0x80)
    (front rest : List UInt8) :
    lossyFrom 0 (front ++ byte :: rest) = lossyFrom 0 front ++ lossyFrom 0 (byte :: rest) := by
  induction front using piece_induction with
  | nil => rfl
  | piece lead others behind hstart ih =>
      have hjoined : characterStart lead (others ++ (behind ++ byte :: rest)) =
          lead :: others := by
        rw [← List.append_assoc, characterStart_append_cons hbyte, hstart]
      rw [List.cons_append, List.append_assoc, lossyFrom_of_characterStart hjoined,
        lossyFrom_of_characterStart hstart, ih, List.append_assoc]

end LogCorpus
