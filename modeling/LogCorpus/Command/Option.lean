/-
Options and commands of the command line.

Some options are accepted everywhere, others belong to one command.  An option
is a switch or takes one value; a command takes a fixed number of operands.
-/
import LogCorpus.Decimal.Text
import LogCorpus.Training.Projection

namespace LogCorpus

/-- The kinds of values of options and operands. -/
inductive ValueKind where
  | path
  | number
  | fraction
  | mode
deriving Repr, DecidableEq

/-- A value from the command line; a switch that is given has no other
value. -/
inductive Value where
  | on
  | path (path : String)
  | number (number : Nat)
  | fraction (fraction : Float)
  | mode (mode : Mode)
deriving Repr, DecidableEq

/-- A natural number of at most 64 bits, maybe with a plus sign. -/
def argumentNumber? (text : String) : Option Nat :=
  let digits :=
    match text.toList with
    | '+' :: rest => rest
    | digits => digits
  let number := Nat.ofDigitChars 10 digits 0
  if digits ≠ [] ∧ digits.all Char.isDigit ∧ number < UInt64.size then
    some number
  else none

/-- The value of this kind that a text denotes.  A path is never empty. -/
def ValueKind.read? (kind : ValueKind) (text : String) : Option Value :=
  match kind with
  | path => if text.isEmpty then none else some (.path text)
  | number => (argumentNumber? text).map .number
  | fraction => (readDecimal? text).map .fraction
  | mode => (Mode.ofName? text).map .mode

/-- The options of the command line. -/
inductive OptionName where
  | verbose
  | quiet
  | config
  | workers
  | jsonMode
  | help
  | version
  | output
  | corpus
  | mode
  | limit
  | compress
  | disallowSameClass
  | maxGraphNodes
  | seed
  | debug
  | indexOut
deriving Repr, DecidableEq

namespace OptionName

/-- The name after two dashes. -/
def long : OptionName → String
  | verbose => "verbose"
  | quiet => "quiet"
  | config => "config"
  | workers => "workers"
  | jsonMode => "json-mode"
  | help => "help"
  | version => "version"
  | output => "output"
  | corpus => "corpus"
  | mode => "mode"
  | limit => "limit"
  | compress => "compress"
  | disallowSameClass => "disallow-same-class"
  | maxGraphNodes => "max-graph-nodes"
  | seed => "seed"
  | debug => "debug"
  | indexOut => "index-out"

/-- The letter after one dash. -/
def short? : OptionName → Option Char
  | verbose => some 'v'
  | quiet => some 'q'
  | help => some 'h'
  | version => some 'V'
  | output => some 'o'
  | limit => some 'l'
  | compress => some 'c'
  | indexOut => some 'i'
  | _ => none

/-- The kind of the option's value; a switch has none. -/
def value? : OptionName → Option ValueKind
  | config | output | corpus | indexOut => some .path
  | workers | limit | maxGraphNodes | seed | debug => some .number
  | mode => some .mode
  | verbose | quiet | jsonMode | help | version | compress
  | disallowSameClass => none

/-- The options that are accepted in front of a command and after it. -/
def everywhere : List OptionName :=
  [verbose, quiet, config, workers, jsonMode]

end OptionName

/-- The commands. -/
inductive CommandName where
  | detect
  | convert
  | excise
  | dot
  | stats
deriving Repr, DecidableEq

/-- What is accepted in front of a command or after it. -/
structure Level where
  options : List OptionName
  operands : List ValueKind
deriving Repr, DecidableEq

namespace CommandName

/-- The name of a command. -/
def name : CommandName → String
  | detect => "detect"
  | convert => "convert"
  | excise => "excise"
  | dot => "dot"
  | stats => "stats"

/-- The command of this exact name. -/
def ofName? (text : String) : Option CommandName :=
  [detect, convert, excise, dot, stats].find? fun command =>
    command.name = text

/-- The options of a command's own. -/
def options : CommandName → List OptionName
  | detect => [.output]
  | convert =>
      [.corpus, .mode, .limit, .compress, .disallowSameClass, .maxGraphNodes,
        .seed, .debug]
  | excise => [.indexOut]
  | dot => [.output]
  | stats => []

/-- The operands of a command. -/
def operands : CommandName → List ValueKind
  | detect => [.path]
  | convert => [.path, .fraction, .fraction, .path]
  | excise => [.path, .path, .path]
  | dot => [.path]
  | stats => [.path]

/-- What is accepted after a command. -/
def level (command : CommandName) : Level :=
  ⟨OptionName.everywhere ++ .help :: command.options, command.operands⟩

end CommandName

/-- What is accepted in front of a command. -/
def outerLevel : Level :=
  ⟨OptionName.everywhere ++ [.help, .version], []⟩

end LogCorpus
