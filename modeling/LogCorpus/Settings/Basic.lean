/-
Settings: the defaults that a settings file gives.

A settings file is a TOML document that may name the corpus and, in the table
`convert`, set fields of the configuration.  Other keys are refused, and so is a
value of the wrong type; whole numbers serve as fractions, too.  A settings file
that is named must be readable.  Without a name, the working directory may hold
one under its usual name.
-/
import LogCorpus.Configuration
import LogCorpus.Storage.OnDisk
import LogCorpus.Toml.Reader

namespace LogCorpus

namespace Toml

/-- The text of a string. -/
def text? : Toml → Option String
  | .string text => some text
  | _ => none

/-- The value of a boolean. -/
def boolean? : Toml → Option Bool
  | .boolean value => some value
  | _ => none

/-- The value of an integer of 64 bits with or without sign. -/
def integer? : Toml → Option Int
  | .integer base digits => do
      let value ← tomlInteger? base digits.toList
      if Int64.minValue.toInt ≤ value ∧ value < UInt64.size then some value
      else none
  | _ => none

/-- The value of a natural number of at most 64 bits. -/
def word? (value : Toml) : Option Nat := do
  let number ← value.integer?
  if 0 ≤ number then some number.toNat else none

/-- The value of a float or of an integer of 64 bits. -/
def float? : Toml → Option Float
  | .float digits => tomlFloat? digits
  | value => value.integer?.map Float.ofInt

/-- The items of an array, however it was made. -/
def items? : Toml → Option (List Toml)
  | .array items => some items
  | .tables items => some (items.map (.table .header))
  | _ => none

/-- The name of a constant: a string, or a table that has the name as its only
key with nothing in it. -/
def name? : Toml → Option String
  | .string text => some text
  | .table _ [(key, .table _ [])] => some key
  | .table _ [(key, .array [])] => some key
  | _ => none

end Toml

namespace Configuration

/-- The names of the fields, in their order. -/
def fieldNames : List String :=
  ["mode", "train_fraction", "validation_fraction", "limit", "workers",
    "compress", "disallow_same_class", "max_graph_nodes", "seed"]

/-- The configuration with the field of this name set. -/
def set? (config : Configuration) (field : String) (value : Toml) :
    Option Configuration :=
  match field with
  | "mode" => do
      return { config with mode := ← value.name? >>= Mode.ofName? }
  | "train_fraction" => do
      return { config with trainFraction := ← value.float? }
  | "validation_fraction" => do
      return { config with validationFraction := ← value.float? }
  | "limit" => do
      return { config with limit := some (← value.word?) }
  | "workers" => do
      return { config with workers := ← value.word? }
  | "compress" => do
      return { config with compress := ← value.boolean? }
  | "disallow_same_class" => do
      return { config with disallowSameClass := ← value.boolean? }
  | "max_graph_nodes" => do
      return { config with maxGraphNodes := ← value.word? }
  | "seed" => do
      return { config with seed := some (.ofNat (← value.word?)) }
  | _ => none

/-- The default configuration with some fields set.  They stand in a table
under their names, or in an array in their order; items beyond the last field
do not count. -/
def ofToml? (value : Toml) : Option Configuration := do
  let entries ←
    match value with
    | .table _ entries => some entries
    | value => value.items?.map fieldNames.zip
  entries.foldlM (fun config entry => config.set? entry.1 entry.2) {}

end Configuration

/-- What a settings file says. -/
structure Settings where
  /-- The root of the corpus, if none is given otherwise. -/
  corpus : Option String := none
  /-- The configuration before anything is laid over it. -/
  convert : Configuration := {}
deriving Repr, DecidableEq

namespace Settings

/-- The settings with the value of one key set. -/
def set? (settings : Settings) (key : String) (value : Toml) :
    Option Settings :=
  match key with
  | "corpus" => do
      return { settings with corpus := some (← value.text?) }
  | "convert" => do
      return { settings with convert := ← Configuration.ofToml? value }
  | _ => none

/-- The settings in a TOML document. -/
def ofEntries? (entries : Entries) : Option Settings :=
  entries.foldlM (fun settings entry => settings.set? entry.1 entry.2) {}

/-- The settings that a text denotes. -/
def parse (text : String) : Except Fault Settings :=
  match parseToml? text >>= ofEntries? with
  | some settings => .ok settings
  | none => .error (.invalidConfig "Invalid config file")

end Settings

/-! ### The settings file -/

/-- The usual name of a settings file. -/
def settingsFileName : String :=
  "loggraph.toml"

/-- The largest settings file, in bytes: 1 MiB. -/
def maxSettingsBytes : Nat :=
  1024 * 1024

namespace Settings

/-- The fault of a settings file that cannot be read. -/
def unreadable (path : String) (cause : DiskFault) : Fault :=
  .invalidConfig s!"Cannot read config '{path}': {cause.message}"

/-- The settings in a file. -/
def readFile (path : String) (disk : Disk) : Except Fault Settings := do
  let size ← (disk.size path).mapError (unreadable path)
  if maxSettingsBytes < size then
    throw (.invalidConfig
      s!"Config file '{path}' exceeds {maxSettingsBytes} bytes")
  let text ← (disk.readText path).mapError (unreadable path)
  parse text

/-- The settings in the named file, or in the usual one if there is one, or
those without a file. -/
def load (named : Option String) (disk : Disk) : Except Fault Settings :=
  match named with
  | some path => readFile path disk
  | none =>
      if disk.isFile settingsFileName then readFile settingsFileName disk
      else .ok {}

end Settings

end LogCorpus
