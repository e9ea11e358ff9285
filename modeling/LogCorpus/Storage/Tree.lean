/-
Directory trees.

A tree is a file, or a directory of named trees.  A walk visits a tree depth first: a
directory before its entries, and the entries of each directory in the order of the
bytes of their names, whatever order the directory gives them in.
-/
import LogCorpus.Storage.Disk
import Mathlib.Data.List.Sort

namespace LogCorpus

/-- A file, or a directory with its entries in any order. -/
inductive FileTree where
  | file (content : Content)
  | directory (entries : List (FileName × FileTree))

namespace FileTree

mutual

/-- What the names lead to. -/
def find? : FileTree → Location → Option Entry
  | file content, [] => some (.file content)
  | file _, _ :: _ => none
  | directory _, [] => some .directory
  | directory entries, name :: rest => findIn? entries name rest

/-- What the names lead to from the entry of that name. -/
def findIn? : List (FileName × FileTree) → FileName → Location → Option Entry
  | [], _, _ => none
  | (other, tree) :: entries, name, rest =>
      if name = other then tree.find? rest else findIn? entries name rest

end

/-- What is visited below an entry of a directory, from the directory. -/
def within (visit : FileName × List (Location × Entry)) : List (Location × Entry) :=
  visit.2.map fun found => (visit.1 :: found.1, found.2)

mutual

/-- A walk: what is in the tree, each with the names that lead there. -/
def walk : FileTree → List (Location × Entry)
  | file content => [([], .file content)]
  | directory entries =>
      let visits := (walkEach entries).insertionSort fun first second =>
        (compare first.1 second.1).isLE
      ([], .directory) :: visits.flatMap within

/-- The walks of the entries of a directory. -/
def walkEach : List (FileName × FileTree) → List (FileName × List (Location × Entry))
  | [] => []
  | (name, tree) :: entries => (name, tree.walk) :: walkEach entries

end

end FileTree

/-- The part of a name behind its last dot, if something stands in front of the dot. -/
def extension? (name : FileName) : Option FileName :=
  let reversed := name.bytes.reverse
  if name = ".." then none
  else
    match reversed.dropWhile (· ≠ 0x2e) with
    | [] | [_] => none
    | _ :: _ :: _ => some ⟨(reversed.takeWhile (· ≠ 0x2e)).reverse⟩

end LogCorpus
