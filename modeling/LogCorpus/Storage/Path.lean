/-
Names of files, and paths: texts that name places on a disk.

A name on a disk is made of bytes, which need not be text; what is shown of it is the
text that can be read.  The parts of a path stand between slashes.  Joining and taking
the parent work on the text alone; a path need not name anything.
-/
import LogCorpus.Text.Bytes
import LogCorpus.Text.Segments
import Std.Data.TreeMap

namespace LogCorpus

/-- The name of a file or a directory, whether its bytes are text or not. -/
structure FileName where
  bytes : List UInt8
deriving Repr, DecidableEq

namespace FileName

/-- The name that is spelled like a text. -/
def ofText (text : String) : FileName :=
  ⟨utf8 text⟩

instance : Coe String FileName :=
  ⟨ofText⟩

/-- What is shown of a name. -/
def text (name : FileName) : String :=
  lossyText name.bytes

/-- Names are in the order of their bytes. -/
instance : Ord FileName :=
  ⟨compareOn bytes⟩

instance : Std.TransOrd FileName :=
  inferInstanceAs (Std.TransCmp (compareOn bytes))

instance : Std.LawfulEqOrd FileName where
  eq_of_compare {first second} hsame := by
    have hbytes : first.bytes = second.bytes := Std.LawfulEqOrd.eq_of_compare hsame
    cases first
    cases second
    exact congrArg mk hbytes

end FileName

/-- Does the path start at the root of the disk? -/
def isAbsolute (path : String) : Bool :=
  path.toList.head? = some '/'

/-- A path below a base.  An absolute path takes the place of the base. -/
def joinPath (base path : String) : String :=
  if isAbsolute path then path
  else if base.isEmpty || base.toList.getLast? = some '/' then base ++ path
  else base ++ "/" ++ path

/-- The bytes of the path that names lead to from a base.  Each name stands behind a
slash, unless the path so far ends with one. -/
def pathBelow (base : String) (names : List FileName) : List UInt8 :=
  names.foldl (fun path name =>
    if path = [] ∨ path.getLast? = some 0x2f then path ++ name.bytes
    else path ++ 0x2f :: name.bytes) (utf8 base)

/-- The parts of a path. -/
def pathParts (path : String) : List String :=
  (segments '/' path.toList).map String.ofList

/-- A part that leads nowhere: an empty one or `.`. -/
def isIdlePart (part : List Char) : Bool :=
  part = [] || part = ['.']

/-- Parts without the idle ones at the end. -/
def dropIdleParts (parts : List (List Char)) : List (List Char) :=
  (parts.reverse.dropWhile isIdlePart).reverse

/-- The start of a path that is no part of its own, a slash or a leading `.`,
and the rest. -/
def splitAnchor : List Char → List Char × List Char
  | '/' :: rest => (['/'], rest)
  | ['.'] => (['.'], [])
  | '.' :: '/' :: rest => (['.'], '/' :: rest)
  | path => ([], path)

/-- The path without its last part.  The root and the empty path have no
parent. -/
def parentPath? (path : String) : Option String :=
  let (anchor, body) := splitAnchor path.toList
  match dropIdleParts (segments '/' body) with
  | [] => if anchor = ['.'] then some "" else none
  | parts =>
      let kept := dropIdleParts parts.dropLast
      some (String.ofList (anchor ++ joinSegments '/' kept))

example : joinPath "corpus" "" = "corpus/" := by decide +kernel

example : parentPath? "corpus//a.proto/." = some "corpus" := by decide +kernel

end LogCorpus
