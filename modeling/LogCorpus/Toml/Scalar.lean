/-
Plain TOML values: numbers, truth values, dates and times.

`tomlScalar?` tells what kind of value a text is.  Numbers are taken apart only
so far that their kind is certain; `tomlInteger?` and `tomlFloat?` find what they
denote, and there may be nothing: a mark of a base without digits is an integer
that cannot be used.
-/
import LogCorpus.Json.Reader
import LogCorpus.Toml.Basic
import LogCorpus.Toml.Moment

namespace LogCorpus

/-- The value of digits in a base up to sixteen. -/
def digitsValue? (base : Nat) (digits : List Char) : Option Nat :=
  digits.foldlM
    (fun number c => do
      let digit ← hexValue? c
      if digit < base then some (base * number + digit) else none)
    0

/-- The integer that digits with an optional sign denote in a base. -/
def tomlInteger? (base : Nat) (text : List Char) : Option Int :=
  let (negative, digits) := readSign text
  if digits = [] then none
  else
    (digitsValue? base digits).map fun value =>
      if negative then -(value : Int) else value

/-- The float that a text denotes.  One that is too large is refused. -/
def tomlFloat? (text : String) : Option Float := do
  let value ← readDecimal? text
  if value.isInf ∧ !(text.toList.contains 'i') then none else some value

/-- Does every underscore stand between two digits? -/
def underscoresFit (isDigit : Char → Bool) (text : List Char) : Bool :=
  text.head? ≠ some '_' && text.getLast? ≠ some '_' &&
    (text.zip (text.drop 1)).all fun (c, next) =>
      (c ≠ '_' || isDigit next) && (next ≠ '_' || isDigit c)

/-- A text without its underscores. -/
def withoutUnderscores (text : List Char) : String :=
  String.ofList (text.filter (· ≠ '_'))

/-- Is this a digit of some base up to sixteen? -/
def isHexDigit (c : Char) : Bool :=
  (hexValue? c).isSome

/-- Digits with underscores at the start of a text, and what follows them.
There is at least one digit, and where it matters no zero in front of others. -/
def readRun? (leadingZeros : Bool) (text : List Char) : Option (List Char) :=
  let run := text.takeWhile fun c => c.isDigit || c = '_'
  let count := run.countP Char.isDigit
  if count = 0 then none
  else if 1 < count ∧ run.head? = some '0' ∧ !leadingZeros then none
  else some (text.drop run.length)

/-- What follows the fraction of a float, if there is one. -/
def afterFraction? : List Char → Option (List Char)
  | '.' :: text => readRun? true text
  | text => some text

/-- What follows the exponent of a float, if there is one. -/
def afterExponent? : List Char → Option (List Char)
  | 'e' :: text | 'E' :: text => readRun? true (readSign text).2
  | text => some text

/-- Is this a float without sign? -/
def isFloatForm (text : List Char) : Bool :=
  (readRun? false text >>= afterFraction? >>= afterExponent?) = some []

/-- An integer in a base, after the mark of the base. -/
def basedScalar? (base : Nat) (digits : List Char) : Option Toml :=
  if digits.all (fun c => c = '_' || (digitsValue? base [c]).isSome) ∧
      underscoresFit isHexDigit digits then
    some (.integer base (withoutUnderscores digits))
  else none

/-- The plain value that a text with a decimal number at its start, after an
optional sign, stands for.  What follows the first digits tells the kind.  An
integer with underscores need not be one to its end, as long as it is not
used. -/
def decimalScalar? (text : List Char) : Option Toml :=
  let number := (readSign text).2
  let leadingZero : Bool := number.head? = some '0'
  match number.dropWhile Char.isDigit with
  | [] =>
      if number = [] ∨ (leadingZero ∧ number.length ≠ 1) then none
      else some (.integer 10 (String.ofList text))
  | c :: rest =>
      if c = '-' ∨ c = ':' then
        if isMoment text then some (.moment (String.ofList text)) else none
      else if (c :: rest).any ['.', 'e', 'E'].contains then
        if isFloatForm number ∧ underscoresFit Char.isDigit text then
          some (.float (withoutUnderscores text))
        else none
      else if c = '_' ∧ !leadingZero ∧ underscoresFit isHexDigit text then
        some (.integer 10 (withoutUnderscores text))
      else none

/-- The plain value that a text stands for. -/
def tomlScalar? : List Char → Option Toml
  | '0' :: 'x' :: digits => basedScalar? 16 digits
  | '0' :: 'o' :: digits => basedScalar? 8 digits
  | '0' :: 'b' :: digits => basedScalar? 2 digits
  | text =>
      if text = "true".toList then some (.boolean true)
      else if text = "false".toList then some (.boolean false)
      else if ["inf".toList, "nan".toList].contains (readSign text).2 then
        some (.float (String.ofList text))
      else decimalScalar? text

example : tomlInteger? 10 "-1000".toList = some (-1000) := by decide +kernel

example : tomlInteger? 2 [] = none := by decide +kernel

end LogCorpus
