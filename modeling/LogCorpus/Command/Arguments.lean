/-
Reading the command line.

Arguments are read from left to right, and the first one that asks for help or
the version, or that is not acceptable, decides.  The value of an option right in
front of the command is looked at only after everything else.
-/
import LogCorpus.Command.Option

namespace LogCorpus

/-- The cause for which arguments lead to no command. -/
inductive Usage where
  | help
  | version
  | error
deriving Repr, DecidableEq

/-- The options and operands given so far. -/
structure Given where
  options : List (OptionName × Value) := []
  operands : List Value := []
deriving Repr, DecidableEq

namespace Given

/-- Note an option with its value, unless it has been given before. -/
def addOption (given : Given) (name : OptionName) (value : Value) :
    Except Usage Given :=
  if given.options.any fun entry => entry.1 = name then .error .error
  else .ok { given with options := given.options ++ [(name, value)] }

/-- Note an option that takes a value. -/
def assign (given : Given) (name : OptionName) (text : String) :
    Except Usage Given :=
  match name.value? >>= fun kind => kind.read? text with
  | some value => given.addOption name value
  | none => .error .error

/-- Note a switch. -/
def turnOn (given : Given) (name : OptionName) : Except Usage Given :=
  match name with
  | .help => .error .help
  | .version => .error .version
  | name => given.addOption name .on

/-- Note the next operand. -/
def addOperand (level : Level) (given : Given) (text : String) :
    Except Usage Given :=
  match level.operands[given.operands.length]? >>=
      fun kind => kind.read? text with
  | some value => .ok { given with operands := given.operands ++ [value] }
  | none => .error .error

end Given

/-- Is the argument an option, or the mark after which there are none?  A dash
alone is a value. -/
def isOptionLike (argument : String) : Bool :=
  match argument.toList with
  | '-' :: _ :: _ => true
  | _ => false

/-- Read letters after one dash: switches and then, maybe, an option with its
value or an option that awaits it. -/
def readLetters (level : Level) (given : Given) :
    List Char → Except Usage (Given × Option OptionName)
  | [] => .ok (given, none)
  | letter :: rest =>
      match level.options.find? fun name => name.short? = some letter with
      | none => .error .error
      | some name =>
          if name.value?.isNone then do
            let given ← given.turnOn name
            readLetters level given rest
          else
            match rest with
            | [] => .ok (given, some name)
            | '=' :: text =>
                (given.assign name (String.ofList text)).map (·, none)
            | text => (given.assign name (String.ofList text)).map (·, none)

/-- Read the text after two dashes: a switch, an option with its value after an
equals sign, or an option that awaits its value. -/
def readLong (level : Level) (given : Given) (text : List Char) :
    Except Usage (Given × Option OptionName) :=
  let long := String.ofList (text.takeWhile (· ≠ '='))
  match level.options.find? fun name => name.long = long with
  | none => .error .error
  | some name =>
      match name.value?, text.dropWhile (· ≠ '=') with
      | some _, [] => .ok (given, some name)
      | some _, _ :: value =>
          (given.assign name (String.ofList value)).map (·, none)
      | none, [] => (given.turnOn name).map (·, none)
      | none, _ => .error .error

/-- Read an argument that looks like an option. -/
def readOption (level : Level) (given : Given) (argument : String) :
    Except Usage (Given × Option OptionName) :=
  match argument.toList with
  | '-' :: '-' :: text => readLong level given text
  | '-' :: letters => readLetters level given letters
  | _ => .error .error

/-- Read the arguments after a command. -/
def readInner (level : Level) (given : Given) (awaiting : Option OptionName) :
    List String → Except Usage Given
  | [] =>
      if awaiting.isNone ∧ given.operands.length = level.operands.length then
        .ok given
      else .error .error
  | argument :: rest =>
      match awaiting with
      | some name => do
          if isOptionLike argument then throw .error
          let given ← given.assign name argument
          readInner level given none rest
      | none =>
          if argument = "--" then do
            let given ← rest.foldlM (Given.addOperand level) given
            if given.operands.length = level.operands.length then return given
            else throw .error
          else if isOptionLike argument then do
            let (given, awaiting) ← readOption level given argument
            readInner level given awaiting rest
          else do
            let given ← given.addOperand level argument
            readInner level given none rest

/-- The command that asks for help. -/
def helpCommand : String :=
  "help"

/-- What follows the command that asks for help: nothing or the name of a
command. -/
def helpUsage : List String → Usage
  | [] => .help
  | [topic] =>
      if topic = helpCommand ∨ (CommandName.ofName? topic).isSome then .help
      else .error
  | _ => .error

/-- What stands on the command line: a command, and what was given in front of
it and after it. -/
structure CommandLine where
  command : CommandName
  outer : Given
  inner : Given
deriving Repr, DecidableEq

/-- Note the option whose value has been read but not looked at. -/
def settle (given : Given) : Option (OptionName × String) → Except Usage Given
  | some (name, text) => given.assign name text
  | none => .ok given

/-- Read the arguments from the first one on. -/
def readOuter (given : Given) (held : Option (OptionName × String))
    (awaiting : Option OptionName) :
    List String → Except Usage CommandLine
  | [] => .error .error
  | argument :: rest =>
      match awaiting with
      | some name =>
          if isOptionLike argument then .error .error
          else readOuter given (some (name, argument)) none rest
      | none =>
          if argument = helpCommand then .error (helpUsage rest)
          else
            match CommandName.ofName? argument with
            | some command => do
                let inner ← readInner command.level {} none rest
                let outer ← settle given held
                return ⟨command, outer, inner⟩
            | none => do
                unless isOptionLike argument do throw .error
                let given ← settle given held
                let (given, awaiting) ← readOption outerLevel given argument
                readOuter given none awaiting rest

/-- Read the arguments of the program. -/
def readCommandLine (arguments : List String) : Except Usage CommandLine :=
  readOuter {} none none arguments

example : readCommandLine ["-qv", "stats", "logs.json"] =
    .ok ⟨.stats, ⟨[(.quiet, .on), (.verbose, .on)], []⟩,
      ⟨[], [.path "logs.json"]⟩⟩ := by rfl

example : readCommandLine ["--workers", "x", "stats", "-h"] = .error .help := by
  rfl

end LogCorpus
