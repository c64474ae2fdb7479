/-
**Arguments of the command.**

Words of the command line are taken one after the other. An option waits for its value, and what was
collected is checked only when something else begins or the line ends. After `--` every word is a
plain one.
-/

namespace TypeLoom.Command

/-- What is printed for every source. -/
inductive Action where
  /-- The text of the source. -/
  | text
  /-- The outline of its tree. -/
  | outline
  /-- The text of the expanded source. -/
  | expansion
  deriving Repr, DecidableEq, Inhabited

/-- The action that a word names. -/
def Action.ofWord? (word : String) : Option Action :=
  if word == "str" || word == "s" then some .text
  else if word == "dump" || word == "d" then some .outline
  else if word == "gen" || word == "g" then some .expansion
  else none

/-- How much is logged. -/
inductive LogLevel where
  | off
  | error
  | warn
  | info
  | debug
  | trace
  deriving Repr, DecidableEq, Inhabited

namespace LogLevel

/-- The name of a level. -/
def name : LogLevel → String
  | .off => "off"
  | .error => "error"
  | .warn => "warn"
  | .info => "info"
  | .debug => "debug"
  | .trace => "trace"

/-- All levels. -/
def all : List LogLevel :=
  [.off, .error, .warn, .info, .debug, .trace]

/-- The level with a name, in small or capital letters. -/
def ofName? (s : String) : Option LogLevel :=
  all.find? fun level => level.name.toList == s.toList.map Char.toLower

end LogLevel

/-- The options that take a value. -/
inductive Flag where
  | symbol
  | output
  | config
  | logLevel
  deriving Repr, DecidableEq, Inhabited

/-- Why a command line is refused, or why it runs nothing. -/
inductive ArgumentError where
  /-- A value is none of the known ones, or is missing. -/
  | invalidValue
  /-- The value of the log level is none. -/
  | invalidLogLevel (value : String)
  /-- No option has the name. -/
  | unknownArgument
  /-- An option is given twice. -/
  | repeatedOption
  /-- An option that takes no value has one. -/
  | tooManyValues
  /-- The action or the files are missing. -/
  | missingArgument
  /-- Help is asked for. -/
  | help
  /-- The version is asked for. -/
  | version
  deriving Repr, DecidableEq, Inhabited

/-- Why a command line is refused, in words. -/
def ArgumentError.message : ArgumentError → String
  | .invalidValue => "a value is missing or not one of the possible values"
  | .invalidLogLevel value =>
    "invalid log level `" ++ value ++ "`, expected one of off, error, warn, info, debug, trace"
  | .unknownArgument => "an argument is not known"
  | .repeatedOption => "an option is given more than once"
  | .tooManyValues => "an option has a value that it does not take"
  | .missingArgument => "a required argument is missing"
  | .help =>
    "Usage: <str|dump|gen> <FILES>... [--symbol NAME] [-o PATH] [-c PATH] [--log-level LEVEL]"
  | .version => "TypeLoom"

/-- A command as it is called. -/
structure Arguments where
  action : Action
  files : List String
  /-- Print only the first declaration with this name. -/
  symbol : Option String := none
  /-- Write into this file. -/
  output : Option String := none
  /-- Read settings from this file. -/
  config : Option String := none
  logLevel : LogLevel := .info
  deriving Repr, DecidableEq, Inhabited

/-! ### Reading the words -/

/-- Words that were collected and not yet checked. -/
inductive Pending where
  | action (word : String)
  | files (words : List String)
  /-- An option and its value, once it came. -/
  | option (flag : Flag) (value : Option String)
  deriving Repr, DecidableEq, Inhabited

/-- What was read of a command line. -/
structure Reading where
  action : Option Action := none
  files : List String := []
  symbol : Option String := none
  output : Option String := none
  config : Option String := none
  logLevel : Option LogLevel := none
  pending : Option Pending := none
  /-- The next plain word is a file. -/
  actionSeen : Bool := false
  /-- All further words are plain ones. -/
  plainOnly : Bool := false
  deriving Inhabited

/-- A value for a slot that may be filled once. -/
def once {α : Type} (old : Option α) (new : Except ArgumentError α) :
    Except ArgumentError (Option α) :=
  match old with
  | some _ => .error .repeatedOption
  | none => new.map some

/-- The log level that a word names. -/
def readLogLevel (word : String) : Except ArgumentError LogLevel :=
  match LogLevel.ofName? word with
  | some level => .ok level
  | none => .error (.invalidLogLevel word)

namespace Reading

/-- Give an option its value. -/
def setFlag (r : Reading) (value : String) : Flag → Except ArgumentError Reading
  | .symbol => do return { r with symbol := ← once r.symbol (.ok value) }
  | .output => do return { r with output := ← once r.output (.ok value) }
  | .config => do return { r with config := ← once r.config (.ok value) }
  | .logLevel => do return { r with logLevel := ← once r.logLevel (readLogLevel value) }

/-- Check what is pending and take it over. -/
def settle (r : Reading) : Except ArgumentError Reading :=
  let done := { r with pending := none }
  match r.pending with
  | none => .ok done
  | some (.action word) =>
    match Action.ofWord? word with
    | some action => .ok { done with action := some action }
    | none => .error .invalidValue
  | some (.files words) => .ok { done with files := r.files ++ words }
  | some (.option _ none) => .error .invalidValue
  | some (.option flag (some value)) => done.setFlag value flag

/-- Take a plain word: the action, or else a file. -/
def plain (r : Reading) (word : String) : Except ArgumentError Reading :=
  match r.pending with
  | some (.files words) => .ok { r with pending := some (.files (words ++ [word])) }
  | _ => do
    let r ← r.settle
    if r.actionSeen then return { r with pending := some (.files [word]) }
    return { r with pending := some (.action word), actionSeen := true }

/-- Begin an option; its value is attached or is the next word. -/
def option (r : Reading) (flag : Flag) (attached : Option String) :
    Except ArgumentError Reading := do
  let r ← r.settle
  match attached with
  | some value => r.setFlag value flag
  | none => return { r with pending := some (.option flag none) }

/-- Stop with a request that runs nothing, once what is pending was checked. -/
def stop (r : Reading) (request : ArgumentError) : Except ArgumentError Reading := do
  let _ ← r.settle
  throw request

/-- The option that takes a value and has a long name. -/
def longFlag? (name : String) : Option Flag :=
  if name == "symbol" then some .symbol
  else if name == "output" then some .output
  else if name == "config" then some .config
  else if name == "log-level" then some .logLevel
  else none

/-- Take a long option. -/
def long (r : Reading) (name : String) (attached : Option String) :
    Except ArgumentError Reading :=
  match longFlag? name with
  | some flag => r.option flag attached
  | none =>
    if name == "help" || name == "version" then
      if attached.isSome then .error .tooManyValues
      else r.stop (if name == "help" then .help else .version)
    else .error .unknownArgument

/-- The value attached to a short option: the rest of its word, without an equals sign before it. -/
def attachedTo : List Char → Option String
  | [] => none
  | '=' :: rest => some (String.ofList rest)
  | rest => some (String.ofList rest)

/-- Take a word of short options, of which the first decides. -/
def short (r : Reading) (letter : Char) (rest : List Char) : Except ArgumentError Reading :=
  if letter == 'o' then r.option .output (attachedTo rest)
  else if letter == 'c' then r.option .config (attachedTo rest)
  else if letter == 'h' then r.stop .help
  else if letter == 'V' then r.stop .version
  else .error .unknownArgument

/-- The name of a long option and the value after its equals sign. -/
def splitLong (cs : List Char) : String × Option String :=
  let name := String.ofList (cs.takeWhile (· != '='))
  match cs.dropWhile (· != '=') with
  | [] => (name, none)
  | _ :: value => (name, some (String.ofList value))

/-- Take a word that is no option: the value that an option waits for, or a plain word. -/
def value (r : Reading) (word : String) : Except ArgumentError Reading :=
  match r.pending with
  | some (.option flag none) => .ok { r with pending := some (.option flag (some word)) }
  | _ => r.plain word

/-- Take a word. -/
def word (r : Reading) (word : String) : Except ArgumentError Reading :=
  if r.plainOnly then r.plain word
  else match word.toList with
    | ['-', '-'] => .ok { r with plainOnly := true }
    | '-' :: '-' :: cs =>
      let (name, attached) := splitLong cs
      r.long name attached
    | '-' :: letter :: rest => r.short letter rest
    | _ => r.value word

/-- The arguments once all words were taken. -/
def finish (r : Reading) : Except ArgumentError Arguments := do
  let r ← r.settle
  match r.action, r.files with
  | some action, file :: more =>
    return { action, files := file :: more, symbol := r.symbol, output := r.output,
             config := r.config, logLevel := r.logLevel.getD .info }
  | _, _ => throw .missingArgument

end Reading

/-- The arguments that the words of a command line give. -/
def Arguments.ofWords (words : List String) : Except ArgumentError Arguments := do
  (← words.foldlM Reading.word {}).finish

end TypeLoom.Command
