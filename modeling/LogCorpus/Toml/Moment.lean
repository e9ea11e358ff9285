/-
Dates and times in TOML documents.

A date is `1979-05-27`, a time `07:32` or `07:32:00.999`.  Both may stand alone
or together, and a date with a time may end with an offset from universal time.
No setting holds a moment, so `isMoment` only tells which texts are moments.
-/
import LogCorpus.Decimal.Text

namespace LogCorpus

/-- A number of exactly this many digits, and what follows it. -/
def readPadded? (width : Nat) (text : List Char) : Option (Nat × List Char) :=
  let digits := text.take width
  if digits.length = width ∧ digits.all Char.isDigit then
    some (Nat.ofDigitChars 10 digits 0, text.drop width)
  else none

/-- Does February have 29 days? -/
def isLeapYear (year : Nat) : Bool :=
  year % 4 = 0 && (year % 100 ≠ 0 || year % 400 = 0)

/-- The number of days of a month.  Months are counted from one, and there are
no days outside the twelve. -/
def daysInMonth (year month : Nat) : Nat :=
  if month = 0 ∨ 12 < month then 0
  else if month = 2 then if isLeapYear year then 29 else 28
  else if [4, 6, 9, 11].contains month then 30
  else 31

/-- What follows a date. -/
def afterDate? (text : List Char) : Option (List Char) := do
  let (year, rest) ← readPadded? 4 text
  let '-' :: rest := rest | none
  let (month, rest) ← readPadded? 2 rest
  let '-' :: rest := rest | none
  let (day, rest) ← readPadded? 2 rest
  if 1 ≤ day ∧ day ≤ daysInMonth year month then some rest else none

/-- What follows hours and minutes. -/
def afterMinutes? (text : List Char) : Option (List Char) := do
  let (hours, rest) ← readPadded? 2 text
  let ':' :: rest := rest | none
  let (minutes, rest) ← readPadded? 2 rest
  if hours < 24 ∧ minutes < 60 then some rest else none

/-- What follows the seconds of a time, which may be left out.  They may have a
fraction, and the last minute of a day may have a leap second. -/
def afterSeconds? : List Char → Option (List Char)
  | ':' :: text => do
      let (seconds, rest) ← readPadded? 2 text
      if 60 < seconds then none
      else
        match rest with
        | '.' :: rest =>
            let (fraction, rest) := readDigits rest
            if fraction = [] then none else some rest
        | rest => some rest
  | text => some text

/-- What follows a time. -/
def afterTime? (text : List Char) : Option (List Char) :=
  afterMinutes? text >>= afterSeconds?

/-- Is this an offset from universal time, or nothing? -/
def isOffset : List Char → Bool
  | [] => true
  | ['Z'] | ['z'] => true
  | '+' :: text | '-' :: text => afterMinutes? text = some []
  | _ => false

/-- Is this a date, a time, or a date and a time? -/
def isMoment (text : List Char) : Bool :=
  match afterDate? text with
  | none => afterTime? text = some []
  | some [] => true
  | some (separator :: rest) =>
      ['T', 't', ' '].contains separator && (afterTime? rest).any isOffset

example : isMoment "2000-02-29 23:59:60.5-07:00".toList = true := by
  decide +kernel

example : isMoment "1900-02-29".toList = false := by decide +kernel

end LogCorpus
