/-
Occurrences of logging statements, and their groups.

An occurrence names the graph record of a source file, the statement's root
node if it is known, and what the statement logs.  Rows of an index have no
source line, so the line is known only right after detection.

Sibling records of one source file differ in a number at the end of their stem:
`Foo1.java.proto` and `Foo12.java.proto` belong to the group `Foo.java.proto`.
`numberedPath` makes such siblings and `groupKey` forgets the number again.
-/
import LogCorpus.Distinct
import LogCorpus.Fault
import LogCorpus.Severity
import LogCorpus.Text.Segments

namespace LogCorpus

/-- A logging statement in the graph record of a source file. -/
structure Occurrence where
  graphPath : String
  severity : Severity
  message : String
  root : Option UInt64 := none
  line : Option UInt32 := none
deriving Repr, DecidableEq

/-- The severity of this name, or the fault of an occurrence that has none. -/
def Severity.parse (text : String) : Except Fault Severity :=
  match Severity.ofName? text with
  | some severity => .ok severity
  | none => .error (.invalidOccurrence s!"unknown severity '{text}'")

/-! ### Groups -/

/-- The file name of a path: its last component, if that is a name.  Empty and
`.` components do not count; `..` is no name. -/
def fileName? (path : List Char) : Option (List Char) :=
  let components :=
    (segments '/' path).filter fun part => part ≠ [] ∧ part ≠ ['.']
  components.getLast?.filter fun last => last ≠ ['.', '.']

/-- The stem of a name, up to its first dot, and the rest.  A name that starts
with a dot is all stem. -/
def splitStem (name : List Char) : List Char × List Char :=
  let stem := name.takeWhile (· ≠ '.')
  if stem = [] then (name, []) else (stem, name.dropWhile (· ≠ '.'))

/-- A text without the ASCII digits at its end. -/
def dropFinalDigits (text : List Char) : List Char :=
  (text.reverse.dropWhile Char.isDigit).reverse

/-- The key that all sibling records of one source file share. -/
def groupKey (path : String) : String :=
  let name := (fileName? path.toList).getD path.toList
  let (stem, ending) := splitStem name
  String.ofList (dropFinalDigits stem ++ ending)

/-- The group of an occurrence's record. -/
def Occurrence.group (occurrence : Occurrence) : String :=
  groupKey occurrence.graphPath

/-- The directory part of a path, up to its last slash, and the rest. -/
def splitDirectory (path : List Char) : List Char × List Char :=
  let name := (path.reverse.takeWhile (· ≠ '/')).reverse
  (path.take (path.length - name.length), name)

/-- The path with a number after the stem of its last part. -/
def numberedPath (path : String) (number : Nat) : String :=
  let (directory, name) := splitDirectory path.toList
  let (stem, ending) := splitStem name
  String.ofList (directory ++ stem ++ Nat.toDigits 10 number ++ ending)

/-- Keep the first occurrence of each group. -/
def firstOfEachGroup (occurrences : List Occurrence) : List Occurrence :=
  firstOfEach Occurrence.group occurrences

example : groupKey "app/Foo12.java.proto" = "Foo.java.proto" := by
  decide +kernel

example : numberedPath "app/Foo.java.proto" 12 = "app/Foo12.java.proto" := by
  decide +kernel

end LogCorpus
