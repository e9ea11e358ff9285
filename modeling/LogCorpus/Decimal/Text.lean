/-
Decimal text of floating-point numbers.

`decimalText` writes the shortest digits that read back, always in positional
notation.  `readDecimal?` reads an optional sign and digits with an optional
fraction and exponent, or one of the words for infinity and not-a-number.
-/
import LogCorpus.Decimal.Shortest

namespace LogCorpus

/-- A floating-point number taken apart: a finite one is
`mantissa * 2 ^ exponent`, negated if its sign is set. -/
inductive FloatParts where
  | nan
  | infinite (negative : Bool)
  | finite (negative : Bool) (mantissa : Nat) (exponent : Int)
deriving Repr, DecidableEq

/-- The parts of a number, from its 64 bits: sign, eleven bits of exponent,
52 bits of fraction. -/
def FloatParts.ofBits (bits : Nat) : FloatParts :=
  let negative := bits >>> 63 = 1
  let biased : Nat := bits / fullMantissa % 2048
  let fraction : Nat := bits % fullMantissa
  if biased = 2047 then
    if fraction = 0 then .infinite negative else .nan
  else if biased = 0 then .finite negative fraction (-1074)
  else .finite negative (fullMantissa + fraction) (biased - 1075)

/-- Decimal digits with the point where it belongs: no exponent, no trailing
point. -/
def positional (number : Scaled) : List Char :=
  let digits := Nat.toDigits 10 number.digits
  let places := (-number.exponent).toNat
  if places = 0 then digits ++ List.replicate number.exponent.toNat '0'
  else if places < digits.length then
    digits.take (digits.length - places) ++
      '.' :: digits.drop (digits.length - places)
  else '0' :: '.' :: (List.replicate (places - digits.length) '0' ++ digits)

/-- The written form of a number's parts. -/
def FloatParts.text : FloatParts → List Char
  | nan => ['N', 'a', 'N']
  | infinite negative => (if negative then ['-'] else []) ++ ['i', 'n', 'f']
  | finite negative mantissa exponent =>
      (if negative then ['-'] else []) ++
        if mantissa = 0 then ['0'] else positional (shortest mantissa exponent)

/-- The written form of a number. -/
def decimalText (number : Float) : String :=
  String.ofList (FloatParts.ofBits number.toBits.toNat).text

/-- The number nearest to `digits * 10 ^ exponent`.  Beyond the range of
exponents the answer is infinity or zero whatever the digits are. -/
def floatOfScaled (negative : Bool) (number : Scaled) : Float :=
  let places := (Nat.toDigits 10 number.digits).length
  let magnitude :=
    if number.digits = 0 then 0.0
    else if 310 < number.exponent + places then 1.0 / 0.0
    else if number.exponent + places < -330 then 0.0
    else
      Float.ofScientific number.digits (number.exponent < 0)
        number.exponent.natAbs
  if negative then -magnitude else magnitude

/-- An optional sign: `true` for minus. -/
def readSign : List Char → Bool × List Char
  | '-' :: rest => (true, rest)
  | '+' :: rest => (false, rest)
  | text => (false, text)

/-- The leading decimal digits of a text and what follows them. -/
def readDigits (text : List Char) : List Char × List Char :=
  (text.takeWhile Char.isDigit, text.dropWhile Char.isDigit)

/-- The digits after a point, or no digits where there is no point. -/
def readFraction : List Char → List Char × List Char
  | '.' :: rest => readDigits rest
  | text => ([], text)

/-- The exponent that ends a number: nothing at all, or `e` with an optional
sign and at least one digit. -/
def readExponent? : List Char → Option Int
  | [] => some 0
  | c :: rest =>
      if c = 'e' ∨ c = 'E' then
        let (negative, rest) := readSign rest
        let (digits, rest) := readDigits rest
        if digits = [] ∨ rest ≠ [] then none
        else
          let power : Int := Nat.ofDigitChars 10 digits 0
          some (if negative then -power else power)
      else none

/-- An unsigned number: digits with an optional point before, among or after
them, at least one digit, and an optional exponent. -/
def readScaled? (text : List Char) : Option Scaled :=
  let (whole, rest) := readDigits text
  let (fraction, rest) := readFraction rest
  if whole = [] ∧ fraction = [] then none
  else
    (readExponent? rest).map fun exponent =>
      ⟨Nat.ofDigitChars 10 (whole ++ fraction) 0, exponent - fraction.length⟩

/-- The number that a text denotes.  The words for infinity and not-a-number
may be in any case. -/
def readDecimal? (text : String) : Option Float :=
  let (negative, rest) := readSign text.toList
  let word := String.ofList (rest.map Char.toLower)
  if word = "inf" ∨ word = "infinity" then
    some (if negative then -(1.0 / 0.0) else 1.0 / 0.0)
  else if word = "nan" then some (0.0 / 0.0)
  else (readScaled? rest).map (floatOfScaled negative)

example : (FloatParts.ofBits 0x3FB999999999999A).text = ['0', '.', '1'] := by
  decide +kernel

end LogCorpus
