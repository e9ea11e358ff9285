/-
Reading JSON.

`parse?` reads one value with blanks around it and nothing else.  Strings are
read in two steps: first into pieces, in which every `u` escape is a UTF-16
unit, then into text, where two units may make one character.
-/
import LogCorpus.Json.Basic

namespace LogCorpus

/-- A piece of a string: a character, or a UTF-16 unit from an escape. -/
inductive Piece where
  | char (c : Char)
  | unit (value : Nat)
deriving Repr, DecidableEq

/-- The value of a hexadecimal digit. -/
def hexValue? (c : Char) : Option Nat :=
  if c.isDigit then some (c.toNat - '0'.toNat)
  else if 'a' ≤ c ∧ c ≤ 'f' then some (c.toNat - 'a'.toNat + 10)
  else if 'A' ≤ c ∧ c ≤ 'F' then some (c.toNat - 'A'.toNat + 10)
  else none

/-- The number that hexadecimal digits denote. -/
def hexNumber? (digits : List Char) : Option Nat :=
  digits.foldlM (fun number c => (hexValue? c).map (16 * number + ·)) 0

/-- The character that stands after a backslash, other than `u`. -/
def escapedChar? : Char → Option Char
  | '"' => some '"'
  | '\\' => some '\\'
  | '/' => some '/'
  | 'b' => some '\x08'
  | 'f' => some '\x0c'
  | 'n' => some '\n'
  | 'r' => some '\r'
  | 't' => some '\t'
  | _ => none

/-- The pieces of a string up to its closing quote, and what follows it. -/
def readPieces : List Char → Option (List Piece × List Char)
  | [] => none
  | '"' :: rest => some ([], rest)
  | '\\' :: 'u' :: a :: b :: c :: d :: rest => do
      let value ← hexNumber? [a, b, c, d]
      let (pieces, rest) ← readPieces rest
      return (.unit value :: pieces, rest)
  | '\\' :: c :: rest => do
      let escaped ← escapedChar? c
      let (pieces, rest) ← readPieces rest
      return (.char escaped :: pieces, rest)
  | c :: rest =>
      if c.toNat < 32 ∨ c = '\\' then none
      else do
        let (pieces, rest) ← readPieces rest
        return (.char c :: pieces, rest)

/-- Is the unit the first half of a character outside the basic plane? -/
def isHighSurrogate (value : Nat) : Bool :=
  0xD800 ≤ value && value < 0xDC00

/-- Is the unit the second half of a character outside the basic plane? -/
def isLowSurrogate (value : Nat) : Bool :=
  0xDC00 ≤ value && value < 0xE000

/-- The character of two surrogates. -/
def surrogatePair (high low : Nat) : Char :=
  Char.ofNat (0x10000 + (high - 0xD800) * 0x400 + (low - 0xDC00))

/-- The characters of a string, unless a surrogate stands alone. -/
def joinPieces? : List Piece → Option (List Char)
  | [] => some []
  | .char c :: rest => (joinPieces? rest).map (c :: ·)
  | .unit high :: .unit low :: rest =>
      if isHighSurrogate high && isLowSurrogate low then
        (joinPieces? rest).map (surrogatePair high low :: ·)
      else if isHighSurrogate high || isLowSurrogate high then none
      else (joinPieces? (.unit low :: rest)).map (Char.ofNat high :: ·)
  | .unit value :: rest =>
      if isHighSurrogate value || isLowSurrogate value then none
      else (joinPieces? rest).map (Char.ofNat value :: ·)

/-- The text of a string after its opening quote, and what follows it. -/
def readString? (text : List Char) : Option (Option String × List Char) :=
  (readPieces text).map fun (pieces, rest) =>
    ((joinPieces? pieces).map String.ofList, rest)

/-- Blanks between the parts of a JSON text. -/
def isJsonBlank (c : Char) : Bool :=
  c = ' ' || c = '\t' || c = '\n' || c = '\r'

/-- A text without the blanks in front of it. -/
def skipJsonBlanks (text : List Char) : List Char :=
  text.dropWhile isJsonBlank

/-- The longest run of digits, if it is not empty. -/
def readDigits1? (text : List Char) : Option (List Char × List Char) :=
  let digits := text.takeWhile Char.isDigit
  if digits = [] then none else some (digits, text.dropWhile Char.isDigit)

/-- The fraction of a number with its point, or nothing. -/
def readJsonFraction? : List Char → Option (List Char × List Char)
  | '.' :: rest => (readDigits1? rest).map fun (digits, rest) => ('.' :: digits, rest)
  | text => some ([], text)

/-- The exponent of a number with its letter and sign, or nothing. -/
def readJsonExponent? : List Char → Option (List Char × List Char)
  | c :: rest =>
      if c = 'e' ∨ c = 'E' then
        match rest with
        | sign :: more =>
            if sign = '+' ∨ sign = '-' then
              (readDigits1? more).map fun (digits, rest) =>
                (c :: sign :: digits, rest)
            else (readDigits1? rest).map fun (digits, rest) => (c :: digits, rest)
        | [] => none
      else some ([], c :: rest)
  | [] => some ([], [])

/-- A number without its sign: digits without a leading zero, then perhaps a
fraction and an exponent. -/
def readNumber? (negative : Bool) (text : List Char) :
    Option (Json × List Char) := do
  let (digits, rest) ← readDigits1? text
  guard (digits.head? ≠ some '0' ∨ digits.length = 1)
  let (fraction, rest) ← readJsonFraction? rest
  let (exponent, rest) ← readJsonExponent? rest
  let value := Nat.ofDigitChars 10 digits 0
  if fraction = [] ∧ exponent = [] ∧ ¬(negative ∧ value = 0) then
    return (.integer (if negative then -(value : Int) else value), rest)
  else
    let sign := if negative then ['-'] else []
    let lexeme := String.ofList (sign ++ digits ++ fraction ++ exponent)
    return (.decimal lexeme, rest)

mutual

/-- Read a value with the blanks in front of it.  Each step takes fuel. -/
def readJson : Nat → List Char → Option (Json × List Char)
  | 0, _ => none
  | fuel + 1, text =>
      match skipJsonBlanks text with
      | 'n' :: 'u' :: 'l' :: 'l' :: rest => some (.null, rest)
      | 't' :: 'r' :: 'u' :: 'e' :: rest => some (.bool true, rest)
      | 'f' :: 'a' :: 'l' :: 's' :: 'e' :: rest => some (.bool false, rest)
      | '"' :: rest =>
          (readString? rest).map fun (text, rest) => (.string text, rest)
      | '[' :: rest =>
          match skipJsonBlanks rest with
          | ']' :: rest => some (.array [], rest)
          | rest =>
              (readItems fuel rest).map fun (items, rest) => (.array items, rest)
      | '\x7b' :: rest =>
          match skipJsonBlanks rest with
          | '\x7d' :: rest => some (.object [], rest)
          | rest =>
              (readMembers fuel rest).map fun (members, rest) =>
                (.object members, rest)
      | '-' :: rest => readNumber? true rest
      | rest => readNumber? false rest

/-- Read the items of an array up to its closing bracket. -/
def readItems : Nat → List Char → Option (List Json × List Char)
  | 0, _ => none
  | fuel + 1, text => do
      let (item, rest) ← readJson fuel text
      match skipJsonBlanks rest with
      | ',' :: rest =>
          let (items, rest) ← readItems fuel rest
          return (item :: items, rest)
      | ']' :: rest => return ([item], rest)
      | _ => none

/-- Read the members of an object up to its closing brace. -/
def readMembers :
    Nat → List Char → Option (List (Option String × Json) × List Char)
  | 0, _ => none
  | fuel + 1, text => do
      let '"' :: rest := skipJsonBlanks text | none
      let (key, rest) ← readString? rest
      let ':' :: rest := skipJsonBlanks rest | none
      let (value, rest) ← readJson fuel rest
      match skipJsonBlanks rest with
      | ',' :: rest =>
          let (members, rest) ← readMembers fuel rest
          return ((key, value) :: members, rest)
      | '\x7d' :: rest => return ([(key, value)], rest)
      | _ => none

end

namespace Json

/-- The value that a text denotes.  A value of `n` characters takes at most
`2 * n` steps. -/
def parse? (text : String) : Option Json := do
  let (value, rest) ← readJson (2 * text.toList.length + 2) text.toList
  if skipJsonBlanks rest = [] then some value else none

end Json

end LogCorpus
