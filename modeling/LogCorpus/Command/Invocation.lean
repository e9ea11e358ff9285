/-
Invocations: what the program is asked to do.

Options that are accepted everywhere count more after the command than in front
of it.
-/
import LogCorpus.Command.Arguments
import LogCorpus.Configuration

namespace LogCorpus

/-- The operands and options of a conversion. -/
structure ConvertArguments where
  indexFile : String
  directory : String
  /-- The root of the corpus, if it is given. -/
  corpus : Option String
  /-- What to lay over the configuration of the settings. -/
  overrides : Overrides
  /-- The place of the only occurrence to convert. -/
  debug : Option Nat
deriving Repr, DecidableEq

/-- A command with its operands and options. -/
inductive Command where
  | detect (corpus output : String)
  | convert (arguments : ConvertArguments)
  | excise (indexFile corpus target : String) (indexOut : Option String)
  | dot (graphFile : String) (output : Option String)
  | stats (indexFile : String)
deriving Repr, DecidableEq

/-- What the program is asked to do. -/
structure Invocation where
  command : Command
  /-- The settings file, if it is named. -/
  config : Option String
  quiet : Bool
  jsonMode : Bool
deriving Repr, DecidableEq

/-- The index file that is written if no other is named. -/
def defaultIndexFile : String :=
  "logs.json"

namespace CommandLine

/-- The value of an option. -/
def value? (line : CommandLine) (name : OptionName) : Option Value :=
  line.inner.options.lookup name <|> line.outer.options.lookup name

/-- Is the switch given? -/
def isOn (line : CommandLine) (name : OptionName) : Bool :=
  (line.value? name).isSome

/-- The path that an option has as its value. -/
def path? (line : CommandLine) (name : OptionName) : Option String :=
  match line.value? name with
  | some (.path path) => some path
  | _ => none

/-- The number that an option has as its value. -/
def number? (line : CommandLine) (name : OptionName) : Option Nat :=
  match line.value? name with
  | some (.number number) => some number
  | _ => none

/-- The mode that an option has as its value. -/
def mode? (line : CommandLine) (name : OptionName) : Option Mode :=
  match line.value? name with
  | some (.mode mode) => some mode
  | _ => none

/-- The configuration that the options of a conversion give. -/
def overrides (line : CommandLine) (train validation : Float) : Overrides where
  mode := line.mode? .mode
  trainFraction := some train
  validationFraction := some validation
  limit := line.number? .limit
  workers := line.number? .workers
  compress := line.isOn .compress
  disallowSameClass := line.isOn .disallowSameClass
  maxGraphNodes := line.number? .maxGraphNodes
  seed := (line.number? .seed).map .ofNat

/-- The command with its operands and options. -/
def toCommand? (line : CommandLine) : Option Command :=
  match line.command, line.inner.operands with
  | .detect, [.path corpus] =>
      some (.detect corpus ((line.path? .output).getD defaultIndexFile))
  | .convert,
      [.path indexFile, .fraction train, .fraction validation,
        .path directory] =>
      some (.convert {
        indexFile, directory
        corpus := line.path? .corpus
        overrides := line.overrides train validation
        debug := line.number? .debug })
  | .excise, [.path indexFile, .path corpus, .path target] =>
      some (.excise indexFile corpus target (line.path? .indexOut))
  | .dot, [.path graphFile] => some (.dot graphFile (line.path? .output))
  | .stats, [.path indexFile] => some (.stats indexFile)
  | _, _ => none

end CommandLine

/-- What the arguments ask the program to do. -/
def Invocation.parse (arguments : List String) : Except Usage Invocation := do
  let line ← readCommandLine arguments
  match line.toCommand? with
  | some command =>
      return {
        command
        config := line.path? .config
        quiet := line.isOn .quiet
        jsonMode := line.isOn .jsonMode }
  | none => throw .error

end LogCorpus
