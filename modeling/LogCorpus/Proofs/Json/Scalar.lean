/-
JSON strings and numbers, read back.

A string is read back from its escapes, and an integer from its digits wherever
no number goes on behind them.
-/
import LogCorpus.Json.Reader
import LogCorpus.Json.Writer
import LogCorpus.Proofs.Stateful
import Mathlib.Data.List.Forall2

namespace LogCorpus

/-! ### Strings -/

theorem hexValue?_hexDigit {digit : Nat} (hdigit : digit < 16) :
    hexValue? (hexDigit digit) = some digit := by
  have hall : ∀ digit < 16, hexValue? (hexDigit digit) = some digit := by
    decide
  exact hall digit hdigit

/-- The four digits that stand for a control character. -/
theorem hexNumber?_of_lt {number : Nat} (hnumber : number < 32) :
    hexNumber? ['0', '0', hexDigit (number / 16), hexDigit (number % 16)] =
      some number := by
  have hhigh : hexValue? (hexDigit (number / 16)) = some (number / 16) :=
    hexValue?_hexDigit (by omega)
  have hlow : hexValue? (hexDigit (number % 16)) = some (number % 16) :=
    hexValue?_hexDigit (by omega)
  have hzero : hexValue? '0' = some 0 := rfl
  simp [hexNumber?, hzero, hhigh, hlow]
  omega

/-- The pieces that a character is read back as: itself, or the unit of a control
character. -/
inductive Piece.Denotes : Piece → Char → Prop where
  | char (c : Char) : Denotes (.char c) c
  | unit (c : Char) (hcontrol : c.toNat < 32) : Denotes (.unit c.toNat) c

theorem readPieces_escape {c escaped : Char} (hescaped : escapedChar? c = some escaped)
    (text : List Char) :
    readPieces ('\\' :: c :: text) =
      (readPieces text).map fun (pieces, rest) => (.char escaped :: pieces, rest) := by
  rw [readPieces]
  · rw [hescaped]
    cases readPieces text <;> rfl
  · rintro _ _ _ _ _ rfl
    cases hescaped

theorem readPieces_cons {c : Char} (hquote : c ≠ '"') (hslash : c ≠ '\\')
    (hcontrol : ¬ c.toNat < 32) (text : List Char) :
    readPieces (c :: text) =
      (readPieces text).map fun (pieces, rest) => (.char c :: pieces, rest) := by
  rw [readPieces]
  · rw [if_neg (not_or.mpr ⟨hcontrol, hslash⟩)]
    cases readPieces text <;> rfl
  · exact hquote
  · rintro _ _ _ _ _ rfl
    exact absurd rfl hslash
  · rintro _ _ rfl
    exact absurd rfl hslash

theorem readPieces_escapeChar (c : Char) (text : List Char) :
    ∃ piece : Piece, piece.Denotes c ∧
      readPieces (escapeChar c ++ text) =
        (readPieces text).map fun (pieces, rest) => (piece :: pieces, rest) := by
  -- seven characters have an escape of their own
  by_cases hnamed : c ∈ ['"', '\\', '\x08', '\t', '\n', '\x0c', '\r']
  · refine ⟨.char c, .char c, ?_⟩
    simp only [List.mem_cons, List.not_mem_nil, or_false] at hnamed
    rcases hnamed with rfl | rfl | rfl | rfl | rfl | rfl | rfl <;>
      exact readPieces_escape rfl text
  · simp only [List.mem_cons, List.not_mem_nil, or_false, not_or] at hnamed
    obtain ⟨hquote, hslash, hback, htab, hline, hform, hreturn⟩ := hnamed
    simp only [escapeChar, if_neg hquote, if_neg hslash, if_neg hback, if_neg htab,
      if_neg hline, if_neg hform, if_neg hreturn]
    by_cases hcontrol : c.toNat < 32
    · refine ⟨.unit c.toNat, .unit c hcontrol, ?_⟩
      rw [if_pos hcontrol]
      simp only [List.cons_append, List.nil_append, readPieces,
        hexNumber?_of_lt hcontrol]
      cases readPieces text <;> rfl
    · rw [if_neg hcontrol, List.singleton_append]
      exact ⟨.char c, .char c, readPieces_cons hquote hslash hcontrol text⟩

/-- The pieces of an escaped text. -/
theorem readPieces_flatMap (text rest : List Char) :
    ∃ pieces, List.Forall₂ Piece.Denotes pieces text ∧
      readPieces (text.flatMap escapeChar ++ '"' :: rest) = some (pieces, rest) := by
  induction text with
  | nil => exact ⟨[], .nil, by rw [List.flatMap_nil, List.nil_append, readPieces]⟩
  | cons head tail ih =>
      obtain ⟨pieces, hpieces, hread⟩ := ih
      obtain ⟨piece, hpiece, hescape⟩ := readPieces_escapeChar head
        (tail.flatMap escapeChar ++ '"' :: rest)
      refine ⟨piece :: pieces, .cons hpiece hpieces, ?_⟩
      rw [List.flatMap_cons, List.append_assoc, hescape, hread]
      rfl

/-- The unit of a control character is no half of another character. -/
theorem joinPieces?_unit {value : Nat} (hvalue : value < 32) (pieces : List Piece) :
    joinPieces? (.unit value :: pieces) =
      (joinPieces? pieces).map (Char.ofNat value :: ·) := by
  have hhigh : isHighSurrogate value = false := by
    simp only [isHighSurrogate, Bool.and_eq_false_imp, decide_eq_true_eq]
    omega
  have hlow : isLowSurrogate value = false := by
    simp only [isLowSurrogate, Bool.and_eq_false_imp, decide_eq_true_eq]
    omega
  cases pieces with
  | nil => simp [joinPieces?, hhigh, hlow]
  | cons piece pieces =>
      cases piece <;> simp [joinPieces?, hhigh, hlow]

theorem joinPieces?_of_denotes {pieces : List Piece} {text : List Char}
    (hpieces : List.Forall₂ Piece.Denotes pieces text) :
    joinPieces? pieces = some text := by
  induction hpieces with
  | nil => rfl
  | cons hpiece _ ih =>
      cases hpiece with
      | char c => rw [joinPieces?, ih, Option.map_some]
      | unit c hcontrol =>
          rw [joinPieces?_unit hcontrol, ih, Option.map_some, Char.ofNat_toNat]

/-- A text is read back from its JSON string. -/
theorem readString?_escaped (text : String) (rest : List Char) :
    readString? (text.toList.flatMap escapeChar ++ '"' :: rest) =
      some (some text, rest) := by
  obtain ⟨pieces, hpieces, hread⟩ := readPieces_flatMap text.toList rest
  simp only [readString?, hread, Option.map_some, joinPieces?_of_denotes hpieces,
    String.ofList_toList]

/-! ### Numbers -/

/-- No number goes on with this text. -/
def EndsNumber (text : List Char) : Prop :=
  ∀ c ∈ text.head?, c.isDigit = false ∧ c ≠ '.' ∧ c ≠ 'e' ∧ c ≠ 'E'

/-- The digits of a number other than zero do not start with a zero. -/
theorem head?_toDigits_ne_zero {number : Nat} (hnumber : 0 < number) :
    (Nat.toDigits 10 number).head? ≠ some '0' := by
  induction number using Nat.strongRecOn with
  | ind number ih =>
      by_cases hsmall : number < 10
      · rw [Nat.toDigits_of_lt_base hsmall, List.head?_cons, Ne, Option.some_inj,
          Nat.digitChar_eq_zero]
        omega
      · rw [Nat.toDigits_of_base_le (by decide) (Nat.le_of_not_lt hsmall),
          List.head?_append_of_ne_nil _ Nat.toDigits_ne_nil]
        exact ih (number / 10) (by omega) (by omega)

theorem readDigits1?_toDigits (number : Nat) {rest : List Char}
    (hrest : EndsNumber rest) :
    readDigits1? (Nat.toDigits 10 number ++ rest) =
      some (Nat.toDigits 10 number, rest) := by
  have hdigits : ∀ c ∈ Nat.toDigits 10 number, c.isDigit = true :=
    fun c hc => Nat.isDigit_of_mem_toDigits (by decide) (by decide) hc
  have hstop : rest.takeWhile Char.isDigit = [] ∧ rest.dropWhile Char.isDigit = rest := by
    cases rest with
    | nil => exact ⟨rfl, rfl⟩
    | cons c more => simp [(hrest c rfl).1]
  rw [readDigits1?, List.takeWhile_append_of_pos hdigits,
    List.dropWhile_append_of_pos hdigits, hstop.1, hstop.2, List.append_nil,
    if_neg Nat.toDigits_ne_nil]

/-- A natural number is read back from its digits, with its sign if it has
one. -/
theorem readNumber?_toDigits (negative : Bool) (number : Nat)
    (hzero : negative = true → 0 < number) {rest : List Char}
    (hrest : EndsNumber rest) :
    readNumber? negative (Nat.toDigits 10 number ++ rest) =
      some (.integer (if negative then -(number : Int) else number), rest) := by
  have hleading : (Nat.toDigits 10 number).head? ≠ some '0' ∨
      (Nat.toDigits 10 number).length = 1 := by
    cases number with
    | zero => exact .inr rfl
    | succ number => exact .inl (head?_toDigits_ne_zero (Nat.succ_pos number))
  have hfraction : readJsonFraction? rest = some ([], rest) := by
    cases rest with
    | nil => rfl
    | cons c more =>
        rw [readJsonFraction?]
        rintro _ hpoint
        injection hpoint with hpoint
        exact (hrest c rfl).2.1 hpoint
  have hexponent : readJsonExponent? rest = some ([], rest) := by
    cases rest with
    | nil => rfl
    | cons c more =>
        obtain ⟨_, _, hlower, hupper⟩ := hrest c rfl
        simp only [readJsonExponent?, if_neg (not_or.mpr ⟨hlower, hupper⟩)]
  have hsigned : ¬ (negative = true ∧ number = 0) :=
    fun h => Nat.ne_of_gt (hzero h.1) h.2
  rw [readNumber?, readDigits1?_toDigits number hrest]
  change ((guard ((Nat.toDigits 10 number).head? ≠ some '0' ∨
    (Nat.toDigits 10 number).length = 1) : Option Unit) >>= _) = _
  rw [guard_eq_some hleading]
  simp [hfraction, hexponent, hsigned]

end LogCorpus
