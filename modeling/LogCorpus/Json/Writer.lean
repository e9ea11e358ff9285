/-
Writing JSON.

`render` writes a value without any blanks; `renderIndented` writes it over
several lines with two blanks for each level.  In strings only the double quote,
the backslash and the control characters are escaped.
-/
import LogCorpus.Json.Basic

namespace LogCorpus

/-- The hexadecimal digit, in lower case. -/
def hexDigit (digit : Nat) : Char :=
  Nat.digitChar digit

/-- A character as it stands in a JSON string. -/
def escapeChar (c : Char) : List Char :=
  if c = '"' then ['\\', '"']
  else if c = '\\' then ['\\', '\\']
  else if c = '\x08' then ['\\', 'b']
  else if c = '\t' then ['\\', 't']
  else if c = '\n' then ['\\', 'n']
  else if c = '\x0c' then ['\\', 'f']
  else if c = '\r' then ['\\', 'r']
  else if c.toNat < 32 then
    ['\\', 'u', '0', '0', hexDigit (c.toNat / 16), hexDigit (c.toNat % 16)]
  else [c]

/-- A text as a JSON string; without a text, the escape of one surrogate. -/
def renderString : Option String → List Char
  | some text => '"' :: (text.toList.flatMap escapeChar ++ ['"'])
  | none => ['"', '\\', 'u', 'd', '8', '0', '0', '"']

/-- The digits of an integer, after a minus sign if it is negative. -/
def renderInteger : Int → List Char
  | .ofNat number => Nat.toDigits 10 number
  | .negSucc number => '-' :: Nat.toDigits 10 (number + 1)

/-- Texts with a comma between neighbours. -/
def commaSeparated (texts : List (List Char)) : List Char :=
  [','].intercalate texts

namespace Json

mutual

/-- The shortest text of a value. -/
def render : Json → List Char
  | .null => "null".toList
  | .bool true => "true".toList
  | .bool false => "false".toList
  | .integer value => renderInteger value
  | .decimal lexeme => lexeme.toList
  | .string text => renderString text
  | .array items => '[' :: (commaSeparated (renderItems items) ++ [']'])
  | .object members => '\x7b' :: (commaSeparated (renderMembers members) ++ ['\x7d'])

/-- The text of every item. -/
def renderItems : List Json → List (List Char)
  | [] => []
  | item :: rest => render item :: renderItems rest

/-- Every member as a key and a value with a colon between them. -/
def renderMembers : List (Option String × Json) → List (List Char)
  | [] => []
  | (key, value) :: rest =>
      (renderString key ++ ':' :: render value) :: renderMembers rest

end

/-- The start of a line at some level. -/
def lineBreak (level : Nat) : List Char :=
  '\n' :: List.replicate (2 * level) ' '

/-- Entries on lines of their own between two brackets. -/
def bracketed (first last : Char) (level : Nat) (entries : List (List Char)) :
    List Char :=
  match entries with
  | [] => [first, last]
  | entries =>
      first :: (commaSeparated (entries.map (lineBreak (level + 1) ++ ·)) ++
        lineBreak level ++ [last])

mutual

/-- The text of a value that starts at some level of indentation. -/
def renderAt (level : Nat) : Json → List Char
  | .array items => bracketed '[' ']' level (renderItemsAt (level + 1) items)
  | .object members =>
      bracketed '\x7b' '\x7d' level (renderMembersAt (level + 1) members)
  | .null => "null".toList
  | .bool true => "true".toList
  | .bool false => "false".toList
  | .integer value => renderInteger value
  | .decimal lexeme => lexeme.toList
  | .string text => renderString text

/-- The text of every item at some level. -/
def renderItemsAt (level : Nat) : List Json → List (List Char)
  | [] => []
  | item :: rest => renderAt level item :: renderItemsAt level rest

/-- Every member at some level, with a blank after the colon. -/
def renderMembersAt (level : Nat) :
    List (Option String × Json) → List (List Char)
  | [] => []
  | (key, value) :: rest =>
      (renderString key ++ ':' :: ' ' :: renderAt level value) ::
        renderMembersAt level rest

end

/-- A value over several lines. -/
def renderIndented (value : Json) : String :=
  String.ofList (renderAt 0 value)

/-- A value on one line. -/
def line (value : Json) : String :=
  String.ofList value.render

end Json

end LogCorpus
