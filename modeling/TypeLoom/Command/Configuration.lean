/-
**The configuration of a run.**

The first of three files that is there gives the settings: the one that the command names, the one
of the working directory, and the one of the user. Without any the defaults hold. Limits that would
stop every run are refused.
-/

import TypeLoom.Command.Directory
import TypeLoom.Settings.Plain

namespace TypeLoom.Command

/-- What is wrong with a configuration. -/
inductive ConfigurationError where
  /-- The file that the command names is not there. -/
  | missing (path : String)
  /-- The file is no configuration. -/
  | malformed (path : String)
  /-- A key of the file has too many parts. -/
  | longKey (path : String)
  /-- The cursor could take no step. -/
  | noSteps
  /-- No placeholder could be resolved. -/
  | noLevels
  deriving Repr, DecidableEq, Inhabited

/-- The failure that an error of the configuration is. -/
def ConfigurationError.failure : ConfigurationError → FileFailure
  | .missing path => ⟨.notFound, "Missing configuration file: " ++ path⟩
  | .malformed path => ⟨.invalidData, "Failed to parse TOML configuration " ++ path⟩
  | .longKey path =>
    ⟨.invalidData, "Failed to parse TOML configuration " ++ path ++ ": recursion limit\n"⟩
  | .noSteps =>
    ⟨.invalidData,
      "Invalid configuration value `parser.loop_guard`: the cursor needs at least one step"⟩
  | .noLevels =>
    ⟨.invalidData, "Invalid configuration value `mutation.max_depth`: " ++
      "expanding an implements declaration needs at least one level"⟩

/-- The configuration file of the working directory. -/
def localConfig : String := "gigo/config.toml"

/-- The file that gives the settings, if one does; `userConfig` is the file of the user. -/
def locateConfig (d : Directory) (named : Option String) (userConfig : String) : Option String :=
  match named with
  | some path => some path
  | none => [localConfig, userConfig].find? d.isFile

/-- Refuse limits that would stop every run. -/
def checkLimits (s : Settings) : Except ConfigurationError Settings :=
  if s.loopGuard == 0 then .error .noSteps
  else if s.maxDepth == 0 then .error .noLevels
  else .ok s

/-- The settings in a file. -/
def readSettings (d : Directory) (path : String) : Except FileFailure Settings :=
  match d.read path with
  | .error failure =>
    .error (if failure.problem == .notFound then (ConfigurationError.missing path).failure
      else failure)
  | .ok text =>
    match Settings.ofToml text with
    | .error .malformed => .error (ConfigurationError.malformed path).failure
    | .error .longKey => .error (ConfigurationError.longKey path).failure
    | .ok s => (checkLimits s).mapError ConfigurationError.failure

/-- The settings of a run. -/
def loadSettings (d : Directory) (named : Option String) (userConfig : String) :
    Except FileFailure Settings :=
  match locateConfig d named userConfig with
  | none => .ok {}
  | some path => readSettings d path

end TypeLoom.Command
