/-
The options and operands of each command.
-/
namespace GameArchive.Command

/-- What an option is for. -/
inductive Switch where
  | help
  | version
  | verbose
  | quiet
  | provider
  | long
  | detect
  | filter
  | manifest
  | entry
  | output
  | stopOnError
  | noDecrypt
  | noDecompress
  | noFixLumps
  | keepNames
  | replaceShadowBlock
deriving DecidableEq, Repr

/-- What can be the value of an option or an operand. -/
inductive ValueKind where
  | text
  | path
  | provider
  | shell
deriving DecidableEq, Repr

/-- An option: its names, the kind of its value if it has one, and whether
it can be given more than once. -/
structure OptionRule where
  switch : Switch
  long : String
  short : Option Char
  value : Option ValueKind
  repeats : Bool
deriving DecidableEq, Repr

/-- The operands of a command: as many of one kind as `count` says, or at
least so many. -/
structure OperandRule where
  kind : ValueKind
  count : Nat
  orMore : Bool
deriving DecidableEq, Repr

/-- The names of the commands. -/
inductive Verb where
  | manifest
  | list
  | extract
  | convert
  | completions
deriving DecidableEq, Repr

-- ================================================================= values

/-- The names of the providers on the command line; "auto" tries all. -/
def providerNames : List String := ["auto", "nexon", "tiancity", "beancity", "nexon-jp"]

/-- The shells that completions can be asked for. -/
def shellNames : List String := ["bash", "elvish", "fish", "powershell", "zsh"]

/-- Whether a text can be a value of a kind. -/
def ValueKind.accepts : ValueKind → String → Bool
  | .text, _ => true
  | .path, value => value != ""
  | .provider, value => providerNames.contains value
  | .shell, value => shellNames.contains value

-- ================================================================ options

/-- An option without a value. -/
def flag (switch : Switch) (long : String) (short : Option Char) : OptionRule :=
  ⟨switch, long, short, none, false⟩

/-- The options that every command has. -/
def sharedOptions : List OptionRule :=
  [⟨.verbose, "verbose", some 'v', none, true⟩, flag .quiet "quiet" (some 'q'),
   flag .help "help" (some 'h')]

/-- The options before the command. -/
def topOptions : List OptionRule := sharedOptions ++ [flag .version "version" (some 'V')]

/-- The option for the provider. -/
def providerOption : OptionRule := ⟨.provider, "provider", some 'p', some .provider, false⟩

/-- The options for the encodings of files. -/
def transcodingOptions : List OptionRule :=
  [flag .noDecrypt "no-decrypt" none, flag .noDecompress "no-decompress" none,
   flag .noFixLumps "no-fix-lumps" none, flag .keepNames "keep-names" none,
   flag .replaceShadowBlock "replace-shadowblock" none]

namespace Verb

/-- The verb of a name. -/
def ofName? : String → Option Verb
  | "manifest" => some .manifest
  | "list" => some .list
  | "extract" => some .extract
  | "convert" => some .convert
  | "completions" => some .completions
  | _ => none

/-- The options of a command. -/
def options : Verb → List OptionRule
  | .manifest | .completions => sharedOptions
  | .list =>
    sharedOptions ++ [providerOption, flag .long "long" (some 'l'),
      flag .detect "detect" (some 'd'), ⟨.filter, "filter", some 'f', some .text, false⟩]
  | .extract =>
    sharedOptions ++ ([flag .manifest "manifest" (some 'm'),
      ⟨.entry, "entry", some 'e', some .text, true⟩,
      ⟨.output, "output", some 'o', some .path, false⟩, providerOption,
      flag .stopOnError "stop-on-error" none] ++ transcodingOptions)
  | .convert => sharedOptions ++ transcodingOptions

/-- The operands of a command. -/
def operands : Verb → OperandRule
  | .manifest | .list => ⟨.path, 1, false⟩
  | .extract => ⟨.path, 1, true⟩
  | .convert => ⟨.path, 2, false⟩
  | .completions => ⟨.shell, 1, false⟩

end Verb
end GameArchive.Command
