/-
Severities of logging statements.

A severity is known by its lower-case name; `ofName?` reads back exactly the
names that `name` writes.
-/

namespace LogCorpus

/-- The severity of a logging statement, the least urgent first. -/
inductive Severity where
  | trace
  | debug
  | info
  | warn
  | error
  | fatal
deriving Repr, DecidableEq

namespace Severity

/-- Every severity, in ascending order. -/
def all : List Severity :=
  [trace, debug, info, warn, error, fatal]

/-- The name under which a severity is written. -/
def name : Severity → String
  | trace => "trace"
  | debug => "debug"
  | info => "info"
  | warn => "warn"
  | error => "error"
  | fatal => "fatal"

/-- The place of a severity in ascending order, from zero. -/
def rank : Severity → Nat
  | trace => 0
  | debug => 1
  | info => 2
  | warn => 3
  | error => 4
  | fatal => 5

/-- Severities are ordered by their rank. -/
instance : Ord Severity :=
  ⟨compareOn rank⟩

/-- The severity of this exact name. -/
def ofName? (text : String) : Option Severity :=
  all.find? (fun severity => severity.name = text)

theorem mem_all (severity : Severity) : severity ∈ all := by
  cases severity <;> decide

theorem all_getElem?_rank (severity : Severity) :
    all[severity.rank]? = some severity := by
  cases severity <;> rfl

theorem ofName?_name (severity : Severity) :
    ofName? severity.name = some severity := by
  cases severity <;> decide

theorem name_of_ofName? {text : String} {severity : Severity}
    (hname : ofName? text = some severity) : severity.name = text := by
  simpa using List.find?_some hname

end Severity

end LogCorpus
