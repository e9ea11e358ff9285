/-
Tokens of a log message.

A token is a maximal run of word characters, or a single other character that
is neither blank nor a double quote.  They are found in one pass as well.  It
carries the word that it is in: a character that is no word character ends this
word and stands alone, unless it is skipped, and the end of the message ends
it too.
-/
import LogCorpus.Text.Characters

namespace LogCorpus

/-- A way to cut a message into tokens. -/
abbrev Tokenizer := String → List String

/-- Word characters are letters, numbers and the underscore. -/
def isWordChar (c : Char) : Bool :=
  isAlphanumeric c || c = '_'

/-- Characters between tokens: blanks and double quotes. -/
def isSkipped (c : Char) : Bool :=
  isBlank c || c = '"'

/-- The runs of a text: neighbouring word characters stay together, every
other character stands alone. -/
def runs (text : List Char) : List (List Char) :=
  text.splitBy (fun left right => isWordChar left && isWordChar right)

/-- A run is a token unless it is a skipped character that is no word
character. -/
def isToken (run : List Char) : Bool :=
  run.any (fun c => isWordChar c || !isSkipped c)

/-- The words and signs of a message, in order. -/
def wordTokens : Tokenizer := fun text =>
  ((runs text.toList).filter isToken).map String.ofList

/-- The whole message as a single token. -/
def wholeToken : Tokenizer := fun text => [text]

example : wordTokens "\"x_1\" + y" = ["x_1", "+", "y"] := by decide +kernel

/-! ### One pass -/

/-- The tokens that a pass has found, and the word that it is in. -/
structure TokenScan where
  tokens : Array String := #[]
  word : String := ""
deriving Repr, DecidableEq

namespace TokenScan

/-- End the word, if the pass is in one. -/
def endWord (scan : TokenScan) : TokenScan :=
  if scan.word.isEmpty then scan else ⟨scan.tokens.push scan.word, ""⟩

/-- Go on with a character. -/
def step (scan : TokenScan) (c : Char) : TokenScan :=
  if isWordChar c then { scan with word := scan.word.push c }
  else
    let ended := scan.endWord
    if isSkipped c then ended
    else { ended with tokens := ended.tokens.push (String.singleton c) }

end TokenScan

/-- The words and signs of a message, found in one pass. -/
def scanTokens : Tokenizer := fun text =>
  (text.toList.foldl TokenScan.step {}).endWord.tokens.toList

example : scanTokens "\"x_1\" + y" = ["x_1", "+", "y"] := by decide +kernel

end LogCorpus
