/-
TOML strings.

Basic strings stand between double quotes and know escapes; literal strings
stand between single quotes and do not.  Three quotes open a string that may
span lines: a line break right after them is dropped, and up to two quotes may
stand in front of the three that close it.
-/
import LogCorpus.Json.Reader

namespace LogCorpus

/-- Control characters that may not stand in a string or a comment. -/
def isForbidden (c : Char) : Bool :=
  (c.toNat < 32 && c ≠ '\t') || c.toNat = 127

/-- The character with this code, unless it is a surrogate or out of range. -/
def scalar? (code : Nat) : Option Char :=
  if code.isValidChar then some (Char.ofNat code) else none

/-- The character that a simple escape stands for. -/
def tomlEscape? : Char → Option Char
  | 'b' => some '\x08'
  | 't' => some '\t'
  | 'n' => some '\n'
  | 'f' => some '\x0c'
  | 'r' => some '\r'
  | 'e' => some '\x1b'
  | '"' => some '"'
  | '\\' => some '\\'
  | _ => none

/-- The number of hexadecimal digits after an escape's letter. -/
def escapeDigits? : Char → Option Nat
  | 'x' => some 2
  | 'u' => some 4
  | 'U' => some 8
  | _ => none

/-- The character that an escape stands for, after its backslash, and what
follows the escape. -/
def readEscape? : List Char → Option (Char × List Char)
  | [] => none
  | letter :: rest =>
      match escapeDigits? letter with
      | some count => do
          let digits := rest.take count
          if digits.length ≠ count then none
          else
            let c ← hexNumber? digits >>= scalar?
            return (c, rest.drop count)
      | none => (tomlEscape? letter).map fun c => (c, rest)

/-- A basic string after its opening quote.  Each step takes fuel. -/
def readBasic? : Nat → List Char → Option (List Char × List Char)
  | 0, _ => none
  | _ + 1, [] => none
  | _ + 1, '"' :: rest => some ([], rest)
  | fuel + 1, '\\' :: rest => do
      let (c, rest) ← readEscape? rest
      let (text, rest) ← readBasic? fuel rest
      return (c :: text, rest)
  | fuel + 1, c :: rest =>
      if isForbidden c then none
      else do
        let (text, rest) ← readBasic? fuel rest
        return (c :: text, rest)

/-- A literal string after its opening quote. -/
def readLiteral? : List Char → Option (List Char × List Char)
  | [] => none
  | '\'' :: rest => some ([], rest)
  | c :: rest =>
      if isForbidden c then none
      else (readLiteral? rest).map fun (text, rest) => (c :: text, rest)

/-- A text without the line break at its start. -/
def dropLineBreak : List Char → List Char
  | '\n' :: rest => rest
  | '\r' :: '\n' :: rest => rest
  | text => text

/-- Blanks within a line. -/
def isTomlBlank (c : Char) : Bool :=
  c = ' ' || c = '\t'

/-- A text without the blanks and line breaks at its start. -/
def dropBlankLines : List Char → List Char
  | '\n' :: rest => dropBlankLines rest
  | '\r' :: '\n' :: rest => dropBlankLines rest
  | c :: rest => if isTomlBlank c then dropBlankLines rest else c :: rest
  | [] => []

/-- What follows a backslash at the end of a line, up to the next character
that is no blank. -/
def afterContinuation? (text : List Char) : Option (List Char) :=
  match text.dropWhile isTomlBlank with
  | '\n' :: rest => some (dropBlankLines rest)
  | '\r' :: '\n' :: rest => some (dropBlankLines rest)
  | _ => none

/-- Five, four or three quotes that close a string: the quotes that belong to
it and what follows. -/
def closing? (quote : Char) (text : List Char) :
    Option (List Char × List Char) :=
  let quotes := (text.takeWhile (· = quote)).length
  if quotes < 3 then none
  else
    let inside := min (quotes - 3) 2
    some (List.replicate inside quote, text.drop (inside + 3))

/-- A string over several lines after its opening quotes.  Its line breaks are
kept as they are written.  Each step takes fuel. -/
def readLines? (quote : Char) : Nat → List Char → Option (List Char × List Char)
  | 0, _ => none
  | _ + 1, [] => none
  | fuel + 1, c :: rest =>
      if c = quote then
        match closing? quote (c :: rest) with
        | some closed => some closed
        | none =>
            (readLines? quote fuel rest).map fun (text, rest) =>
              (c :: text, rest)
      else if c = '\\' ∧ quote = '"' then
        match afterContinuation? rest with
        | some rest => readLines? quote fuel rest
        | none => do
            let (c, rest) ← readEscape? rest
            let (text, rest) ← readLines? quote fuel rest
            return (c :: text, rest)
      else
        match c, rest with
        | '\n', rest =>
            (readLines? quote fuel rest).map fun (text, rest) =>
              ('\n' :: text, rest)
        | '\r', '\n' :: rest =>
            (readLines? quote fuel rest).map fun (text, rest) =>
              ('\r' :: '\n' :: text, rest)
        | c, rest =>
            if isForbidden c then none
            else
              (readLines? quote fuel rest).map fun (text, rest) =>
                (c :: text, rest)

/-- A string on one line, with its quotes. -/
def readShort? : List Char → Option (String × List Char)
  | '"' :: rest =>
      (readBasic? (rest.length + 1) rest).map fun (text, rest) =>
        (String.ofList text, rest)
  | '\'' :: rest =>
      (readLiteral? rest).map fun (text, rest) => (String.ofList text, rest)
  | _ => none

/-- A string, with its quotes. -/
def readTomlString? : List Char → Option (String × List Char)
  | '"' :: '"' :: '"' :: rest =>
      (readLines? '"' (rest.length + 1) (dropLineBreak rest)).map
        fun (text, rest) => (String.ofList text, rest)
  | '\'' :: '\'' :: '\'' :: rest =>
      (readLines? '\'' (rest.length + 1) (dropLineBreak rest)).map
        fun (text, rest) => (String.ofList text, rest)
  | text => readShort? text

end LogCorpus
