/-
TOML documents.

A document is a sequence of table headers and definitions, each on a line of its
own.  Definitions belong to the table of the last header.  Values are nested at
most `maxNesting` deep, and keys have at most `maxKeyParts` parts.
-/
import LogCorpus.Toml.Scalar
import LogCorpus.Toml.Text

namespace LogCorpus

/-- May the character stand in a key without quotes? -/
def isBareKeyChar (c : Char) : Bool :=
  c.isAlphanum || c = '_' || c = '-'

/-- Skip blanks, line breaks and comments.  Inside a comment everything up to
the end of the line is skipped. -/
def skipComments? (inside : Bool) : List Char → Option (List Char)
  | [] => some []
  | '\n' :: rest => skipComments? false rest
  | '\r' :: '\n' :: rest => skipComments? false rest
  | c :: rest =>
      if inside then
        if isForbidden c then none else skipComments? true rest
      else if isTomlBlank c then skipComments? false rest
      else if c = '#' then skipComments? true rest
      else some (c :: rest)

/-- What follows the end of a line and the lines without content after it.
Nothing but a comment may stand in front of the line's end. -/
def endLine? (text : List Char) : Option (List Char) :=
  match text.dropWhile isTomlBlank with
  | [] => some []
  | '#' :: rest => skipComments? true rest
  | '\n' :: rest => skipComments? false rest
  | '\r' :: '\n' :: rest => skipComments? false rest
  | _ => none

/-- One part of a key, with or without quotes. -/
def readKeyPart? (text : List Char) : Option (String × List Char) :=
  match text.takeWhile isBareKeyChar with
  | [] => readShort? text
  | part => some (String.ofList part, text.dropWhile isBareKeyChar)

/-- The largest number of parts of a key. -/
def maxKeyParts : Nat :=
  80

/-- A key of at most so many parts, with dots between them and blanks around
them. -/
def readParts? : Nat → List Char → Option (List String × List Char)
  | 0, _ => none
  | more + 1, text => do
      let (part, rest) ← readKeyPart? (text.dropWhile isTomlBlank)
      match rest.dropWhile isTomlBlank with
      | '.' :: rest =>
          let (path, rest) ← readParts? more rest
          return (part :: path, rest)
      | rest => return ([part], rest)

/-- A key and what follows it and the blanks after it. -/
def readKey? (text : List Char) : Option (List String × List Char) :=
  readParts? maxKeyParts text

/-- Does the character end a plain value? -/
def endsScalar (c : Char) : Bool :=
  [' ', '\t', '\n', '\r', '=', ',', '[', ']', '\x7b', '\x7d', '#'].contains c

/-- A plain value and what follows it.  A time may stand one space after its
date. -/
def readScalar? (text : List Char) : Option (Toml × List Char) := do
  let word := text.takeWhile (!endsScalar ·)
  let rest := text.dropWhile (!endsScalar ·)
  match ← tomlScalar? word, rest with
  | .moment date, ' ' :: more =>
      let time := more.takeWhile (!endsScalar ·)
      if time = [] then return (.moment date, rest)
      else
        return (← tomlScalar? (word ++ ' ' :: time),
          more.dropWhile (!endsScalar ·))
  | value, rest => return (value, rest)

/-- The largest number of arrays and inline tables in one another. -/
def maxNesting : Nat :=
  80

mutual

/-- A value that holds so many arrays and inline tables in one another at most,
and what follows it.  Each value and each entry takes fuel. -/
def readValue? : Nat → Nat → List Char → Option (Toml × List Char)
  | 0, _, _ => none
  | fuel + 1, depth, text =>
      match text, depth with
      | '[' :: rest, depth + 1 =>
          (readItems? fuel depth rest).map fun (items, rest) =>
            (.array items, rest)
      | '\x7b' :: rest, depth + 1 =>
          (readEntries? fuel depth [] rest).map fun (entries, rest) =>
            (.table .inline entries, rest)
      | '"' :: _, _ | '\'' :: _, _ =>
          (readTomlString? text).map fun (text, rest) => (.string text, rest)
      | _, _ => readScalar? text

/-- The items of an array after its bracket or after a comma. -/
def readItems? : Nat → Nat → List Char → Option (List Toml × List Char)
  | 0, _, _ => none
  | fuel + 1, depth, text => do
      match ← skipComments? false text with
      | ']' :: rest => return ([], rest)
      | start =>
          let (item, rest) ← readValue? fuel depth start
          match ← skipComments? false rest with
          | ']' :: rest => return ([item], rest)
          | ',' :: rest =>
              let (items, rest) ← readItems? fuel depth rest
              return (item :: items, rest)
          | _ => none

/-- The entries of an inline table after its brace or after a comma, added to
those before. -/
def readEntries? :
    Nat → Nat → Entries → List Char → Option (Entries × List Char)
  | 0, _, _, _ => none
  | fuel + 1, depth, entries, text => do
      match ← skipComments? false text with
      | '\x7d' :: rest => return (entries, rest)
      | start =>
          let (path, rest) ← readKey? start
          let '=' :: rest := ← skipComments? false rest | none
          let (value, rest) ←
            readValue? fuel depth (← skipComments? false rest)
          let entries ← entries.define? value path
          match ← skipComments? false rest with
          | '\x7d' :: rest => return (entries, rest)
          | ',' :: rest => readEntries? fuel depth entries rest
          | _ => none

end

/-- A document so far: its entries and the path of the table that is open. -/
structure TomlDocument where
  entries : Entries := []
  current : List String := []

namespace TomlDocument

/-- The document after a header with this path.  The last part of the path is
opened in the table that the parts before it lead to. -/
def enter? (document : TomlDocument) (path : List String)
    (openKey : String → Entries → Option Entries) : Option TomlDocument := do
  let key ← path.getLast?
  return ⟨← document.entries.within? (openKey key) path.dropLast, path⟩

/-- Add the header or the definition at the start of a text; what follows its
line is left.  Values take fuel. -/
def readStatement? (fuel : Nat) (document : TomlDocument) :
    List Char → Option (TomlDocument × List Char)
  | '[' :: '[' :: text => do
      let (path, rest) ← readKey? text
      let ']' :: ']' :: rest := rest | none
      return (← document.enter? path Entries.openNextTable?, ← endLine? rest)
  | '[' :: text => do
      let (path, rest) ← readKey? text
      let ']' :: rest := rest | none
      return (← document.enter? path Entries.openTable?, ← endLine? rest)
  | text => do
      let (path, rest) ← readKey? text
      let '=' :: rest := rest | none
      let (value, rest) ←
        readValue? fuel maxNesting (rest.dropWhile isTomlBlank)
      let entries ←
        document.entries.within? (Entries.define? value path) document.current
      return (⟨entries, document.current⟩, ← endLine? rest)

/-- Add all headers and definitions of a text.  Each of them takes fuel. -/
def readAll? : Nat → TomlDocument → List Char → Option TomlDocument
  | _, document, [] => some document
  | 0, _, _ => none
  | fuel + 1, document, text => do
      let (document, rest) ←
        document.readStatement? (2 * text.length + 2) text
      readAll? fuel document rest

end TomlDocument

/-- A text without the mark that some editors put in front. -/
def dropByteOrderMark : List Char → List Char
  | '\uFEFF' :: rest => rest
  | text => text

/-- The entries of the document that a text denotes. -/
def parseToml? (text : String) : Option Entries := do
  let start ← skipComments? false (dropByteOrderMark text.toList)
  let document ← TomlDocument.readAll? start.length {} start
  return document.entries

end LogCorpus
