/-
TOML values and tables.

A number is kept as it is written: what it denotes is asked only when it is
used.  A table remembers how it came to be, because that decides what may still
be added to it.  Values and tables are found by paths of keys; nothing is ever
defined twice, but an array of tables grows with each header that names it.
-/

namespace LogCorpus

/-- How a table came to be: by a header of its own, as a part of a longer
header, as a part of a dotted key, or between braces. -/
inductive TableOrigin where
  | header
  | implied
  | dotted
  | inline
deriving Repr, DecidableEq

/-- A TOML value.  Numbers are written without underscores, and the mark of an
integer's base is left out.  `tables` is an array that headers in double
brackets made. -/
inductive Toml where
  | string (text : String)
  | integer (base : Nat) (digits : String)
  | float (digits : String)
  | boolean (value : Bool)
  | moment (text : String)
  | array (items : List Toml)
  | tables (items : List (List (String × Toml)))
  | table (origin : TableOrigin) (entries : List (String × Toml))
deriving Repr

/-- The keys of a table with their values, in the order of definition. -/
abbrev Entries := List (String × Toml)

namespace Entries

/-- The entries with another value under a key that they have. -/
def replace (entries : Entries) (key : String) (value : Toml) : Entries :=
  entries.map fun entry => if entry.1 = key then (key, value) else entry

/-- Define a value under a dotted key.  The tables on the way may be new, or
known only from longer headers or other dotted keys. -/
def define? (value : Toml) : List String → Entries → Option Entries
  | [], _ => none
  | [key], entries =>
      if entries.any fun entry => entry.1 = key then none
      else some (entries ++ [(key, value)])
  | key :: path, entries =>
      match entries.lookup key with
      | none =>
          (define? value path []).map fun inner =>
            entries ++ [(key, .table .dotted inner)]
      | some (.table .dotted inner) =>
          (define? value path inner).map fun inner =>
            entries.replace key (.table .dotted inner)
      | some (.table .implied inner) =>
          (define? value path inner).map fun inner =>
            entries.replace key (.table .implied inner)
      | some _ => none

/-- Change the last of some tables. -/
def inLast? (change : Entries → Option Entries) (items : List Entries) :
    Option (List Entries) := do
  return items.dropLast ++ [← change (← items.getLast?)]

/-- Change the entries of the table that a header's path leads to.  The tables
on the way may be any but inline ones, and new ones are made where none are; of
an array of tables the last one is meant. -/
def within? (change : Entries → Option Entries) :
    List String → Entries → Option Entries
  | [], entries => change entries
  | key :: path, entries =>
      match entries.lookup key with
      | none =>
          (within? change path []).map fun inner =>
            entries ++ [(key, .table .implied inner)]
      | some (.table .inline _) => none
      | some (.table origin inner) =>
          (within? change path inner).map fun inner =>
            entries.replace key (.table origin inner)
      | some (.tables items) =>
          (inLast? (within? change path) items).map fun items =>
            entries.replace key (.tables items)
      | some _ => none

/-- Open a table by its header: it must be new or known only from longer
headers. -/
def openTable? (key : String) (entries : Entries) : Option Entries :=
  match entries.lookup key with
  | none => some (entries ++ [(key, .table .header [])])
  | some (.table .implied inner) =>
      some (entries.replace key (.table .header inner))
  | some _ => none

/-- Open the next table of an array by its header. -/
def openNextTable? (key : String) (entries : Entries) : Option Entries :=
  match entries.lookup key with
  | none => some (entries ++ [(key, .tables [[]])])
  | some (.tables items) =>
      some (entries.replace key (.tables (items ++ [[]])))
  | some _ => none

end Entries

end LogCorpus
