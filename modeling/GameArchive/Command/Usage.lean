/-
The command line: what can be asked for, and what can be wrong with it.
-/
import GameArchive.Package.Transcoding

namespace GameArchive.Command

open Package (Options Provider)

-- =============================================================== commands

/-- What to list of a container. -/
structure ListRequest where
  container : PathName
  provider : Option Provider
  long : Bool
  detect : Bool
  pattern : String
deriving DecidableEq, Repr

/-- What to extract, and where to. -/
structure ExtractRequest where
  inputs : List PathName
  isManifest : Bool
  entries : List String
  output : PathName
  provider : Option Provider
  options : Options
deriving DecidableEq, Repr

/-- A file to convert, and where to. -/
structure ConvertRequest where
  input : PathName
  output : PathName
  options : Options
deriving DecidableEq, Repr

/-- The commands. Scripts for the completion of command lines are made by
the shells' own tools, so that there is nothing to do for that command. -/
inductive Request where
  | manifest (path : PathName)
  | list (request : ListRequest)
  | extract (request : ExtractRequest)
  | convert (request : ConvertRequest)
  | completions (shell : String)
deriving DecidableEq, Repr

/-- A command, and whether it has to be quiet about its success. -/
structure Invocation where
  request : Request
  quiet : Bool
deriving DecidableEq, Repr

-- ================================================================= faults

/-- Why a command line does not ask for a command. -/
inductive UsageFault where
  /-- There are no arguments. -/
  | noArguments
  /-- The options are there, but no command. -/
  | noCommand
  /-- There is no such command. -/
  | unknownCommand
  /-- There is no such option, or an argument too many. -/
  | unknownArgument
  /-- A needed argument is not there. -/
  | missingArgument
  /-- An option has no value, or a value cannot be used. -/
  | badValue
  /-- A value is given to an option that has none. -/
  | surplusValue
  /-- An option that can be given once is given again. -/
  | repeatedOption
  /-- It asks for help. -/
  | helpWanted
  /-- It asks for the version. -/
  | versionWanted
deriving DecidableEq, Repr

/-- What is wrong with a command line, for people. -/
def UsageFault.message : UsageFault → String
  | .noArguments | .noCommand => "a command is needed"
  | .unknownCommand => "there is no such command"
  | .unknownArgument => "there is no such argument"
  | .missingArgument => "a required argument was not given"
  | .badValue => "a value is needed, or is not one of those that can be used"
  | .surplusValue => "a value was given to an option that has none"
  | .repeatedOption => "an option was given twice"
  | .helpWanted => "commands: manifest, list, extract, convert, completions"
  | .versionWanted => "version 0.1.0"

/-- Whether the command line asks for nothing that could go wrong. -/
def UsageFault.isHarmless : UsageFault → Bool
  | .helpWanted | .versionWanted => true
  | _ => false

end GameArchive.Command
