/-
Reading a command line.

Options that every command has can stand before the command too. The first
other argument names the command, and what follows belongs to it.
-/
import GameArchive.Command.Arguments

namespace GameArchive.Command

open Package (Options Provider)

-- =============================================================== commands

/-- The provider that the arguments ask for, if it is not any. -/
def chosenProvider (a : Arguments) : Option Provider :=
  (a.value? .provider).bind Provider.ofName?

/-- What is to be done to files. -/
def chosenOptions (a : Arguments) : Options where
  unwrap := !a.has .noDecrypt
  decompress := !a.has .noDecompress
  narrowMaps := !a.has .noFixLumps
  rename := !a.has .keepNames
  replaceShadowBlock := a.has .replaceShadowBlock
  strict := a.has .stopOnError

/-- An operand as a path. -/
def operandPath (a : Arguments) (index : Nat) : PathName :=
  PathName.ofText (a.operands.getD index "")

/-- The command that arguments ask for. -/
def Request.ofArguments (verb : Verb) (a : Arguments) : Request :=
  match verb with
  | .manifest => .manifest (operandPath a 0)
  | .list => .list
      { container := operandPath a 0
        provider := chosenProvider a
        long := a.has .long
        detect := a.has .detect
        pattern := (a.value? .filter).getD "*" }
  | .extract => .extract
      { inputs := a.operands.map PathName.ofText
        isManifest := a.has .manifest
        entries := a.values .entry
        output := PathName.ofText ((a.value? .output).getD ".")
        provider := chosenProvider a
        options := chosenOptions a }
  | .convert => .convert
      { input := operandPath a 0
        output := operandPath a 1
        options := chosenOptions a }
  | .completions => .completions (a.operands.getD 0 "")

-- =============================================================== the line

/-- What is asked for behind the word "help". -/
def helpFault : List String → UsageFault
  | [] => .helpWanted
  | [name] =>
    if name = "help" || (Verb.ofName? name).isSome then .helpWanted else .unknownCommand
  | _ => .unknownCommand

/-- What is wrong with a word that should name a command. -/
def strayFault (isBehindDashes : Bool) (word : String) : UsageFault :=
  if isBehindDashes && (word = "help" || (Verb.ofName? word).isSome) then .unknownArgument
  else .unknownCommand

/-- What is wrong with a line that has no command. -/
def noCommandFault (a : Arguments) : UsageFault :=
  if a.given.isEmpty then .noArguments else .noCommand

/-- Reads a command, behind the options that stand before it. -/
def readCommand (top : Arguments) (word : String) (rest : List String) :
    Except UsageFault Invocation :=
  match Verb.ofName? word with
  | some verb => do
    let a ← Arguments.read verb rest
    return ⟨Request.ofArguments verb a, top.has .quiet || a.has .quiet⟩
  | none => if word = "help" then .error (helpFault rest) else .error (strayFault false word)

/-- Reads a command line, behind options that have been read. -/
def readLine : List String → Arguments → Except UsageFault Invocation
  | [], top => .error (noCommandFault top)
  | text :: rest, top =>
    match text.toList with
    | ['-', '-'] =>
      match rest with
      | [] => .error (noCommandFault top)
      | word :: _ => .error (strayFault true word)
    | '-' :: '-' :: long => do readLine rest (← top.takeLong topOptions .text long)
    | '-' :: c :: shorts => do readLine rest (← top.takeShorts topOptions .text (c :: shorts))
    | _ => readCommand top text rest

/-- Reads a command line. -/
def Invocation.parse (texts : List String) : Except UsageFault Invocation := readLine texts {}

end GameArchive.Command
