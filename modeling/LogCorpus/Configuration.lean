/-
Configuration of a conversion.

The default configuration is valid.  `validate` names the first field that is
not; `Overrides.apply` lays values over a configuration.
-/
import LogCorpus.Training.Projection

namespace LogCorpus

/-- What a conversion does with the occurrences that it is given. -/
structure Configuration where
  /-- What a learner is to predict. -/
  mode : Mode := .severity
  /-- The fraction of the data before the test part. -/
  trainFraction : Float := 0.8
  /-- The fraction of the data after the cut for the validation part. -/
  validationFraction : Float := 0.2
  /-- Use at most so many occurrences. -/
  limit : Option Nat := none
  /-- The number of workers; zero leaves the choice to the program. -/
  workers : Nat := 0
  /-- Compress the dataset files. -/
  compress : Bool := false
  /-- Use at most one occurrence of each group. -/
  disallowSameClass : Bool := false
  /-- Refuse graphs with more nodes. -/
  maxGraphNodes : Nat := 500000
  /-- The seed of the shuffle. -/
  seed : Option UInt64 := none
deriving Repr, DecidableEq

/-- Is the number a fraction, from zero to one? -/
def isFraction (value : Float) : Bool :=
  0.0 ≤ value && value ≤ 1.0

/-- A named number must be a fraction. -/
def checkFraction (name : String) (value : Float) : Except Fault Unit :=
  if isFraction value then .ok () else .error (.invalidFraction name value)

namespace Configuration

/-- Can a conversion be run with this configuration? -/
def validate (config : Configuration) : Except Fault Unit := do
  checkFraction "train_fraction" config.trainFraction
  checkFraction "validation_fraction" config.validationFraction
  if config.maxGraphNodes = 0 then
    throw (.invalidConfig "max_graph_nodes must be positive")
  if config.limit = some 0 then
    throw (.invalidConfig "limit must be positive")

end Configuration

/-- Values that take the place of those of a configuration.  The two switches
can only be turned on. -/
structure Overrides where
  mode : Option Mode := none
  trainFraction : Option Float := none
  validationFraction : Option Float := none
  limit : Option Nat := none
  workers : Option Nat := none
  compress : Bool := false
  disallowSameClass : Bool := false
  maxGraphNodes : Option Nat := none
  seed : Option UInt64 := none
deriving Repr, DecidableEq

/-- A configuration with the given values in place of its own. -/
def Overrides.apply (overrides : Overrides) (config : Configuration) :
    Configuration where
  mode := overrides.mode.getD config.mode
  trainFraction := overrides.trainFraction.getD config.trainFraction
  validationFraction :=
    overrides.validationFraction.getD config.validationFraction
  limit := overrides.limit <|> config.limit
  workers := overrides.workers.getD config.workers
  compress := config.compress || overrides.compress
  disallowSameClass := config.disallowSameClass || overrides.disallowSameClass
  maxGraphNodes := overrides.maxGraphNodes.getD config.maxGraphNodes
  seed := overrides.seed <|> config.seed

end LogCorpus
