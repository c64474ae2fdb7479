/-
**The command line.**

The files that a command can ask for are read first; what it prints or why it fails is then decided
without the outside world.
-/

import TypeLoom.Command.Run
import TypeLoom.Report

namespace TypeLoom.Command

/-- The configuration file of the user. -/
def userConfigPath : IO String := do
  let home := (← IO.getEnv "HOME").getD "" ++ "/.config"
  let named := (← IO.getEnv "XDG_CONFIG_HOME").filter fun base => base.startsWith "/"
  return named.getD home ++ "/gigo/config.toml"

/-- Add what stands under a path to a directory: a file with its content, and anything else that is
there as a directory. -/
def fetch (d : Directory) (path : String) : IO Directory := do
  let place := Path.ofText path
  try
    return d.store place (← IO.FS.readBinFile path)
  catch
    | .noFileOrDirectory .. => return d
    | _ => return d.store (place ++ [""]) ByteArray.empty

/-- Run a command and give its exit code. -/
def runCommand (args : Arguments) : IO UInt32 := do
  let userConfig ← userConfigPath
  let paths := args.config.toList ++ [localConfig, userConfig] ++ args.files
  let directory ← paths.foldlM fetch {}
  match outputOf directory userConfig args with
  | .error failure =>
    IO.eprintln (Report.ofFailure failure).message
    return 1
  | .ok out =>
    match args.output with
    | some path => IO.FS.writeFile path out
    | none => IO.print out
    return 0

end TypeLoom.Command

open TypeLoom.Command in
/-- The command. -/
def main (words : List String) : IO UInt32 := do
  match Arguments.ofWords words with
  | .ok args => runCommand args
  | .error problem =>
    if problem == .help || problem == .version then
      IO.println problem.message
      return 0
    IO.eprintln problem.message
    return 2
