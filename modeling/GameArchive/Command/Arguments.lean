/-
Reading the arguments of a command.

Options and operands come in any order. A value that stands apart from its
option is looked at only when the next option, operand or the end shows that
it is complete, so that an unknown option behind it is found first. Behind
"--" everything is an operand.
-/
import GameArchive.Command.Grammar
import GameArchive.Command.Usage
import GameArchive.Text.Parts

namespace GameArchive.Command

-- ================================================================== state

/-- What has been read but not looked at. -/
inductive Pending where
  /-- Nothing. -/
  | nothing
  /-- An option whose value is still to come. -/
  | awaiting (rule : OptionRule)
  /-- An option and its value. -/
  | value (rule : OptionRule) (text : String)
  /-- Operands. -/
  | operands (texts : List String)
deriving DecidableEq, Repr

/-- The arguments that have been read. -/
structure Arguments where
  /-- The options, with their values or an empty text. -/
  given : List (Switch × String) := []
  operands : List String := []
  pending : Pending := .nothing
deriving DecidableEq, Repr

namespace Arguments

/-- Whether an option is given. -/
def has (a : Arguments) (switch : Switch) : Bool := a.given.any (·.1 = switch)

/-- The values of an option, in order. -/
def values (a : Arguments) (switch : Switch) : List String :=
  a.given.filterMap fun (s, value) => if s = switch then some value else none

/-- The value of an option that is given once. -/
def value? (a : Arguments) (switch : Switch) : Option String := (a.values switch).head?

/-- How many operands there are, also those not looked at. -/
def operandCount (a : Arguments) : Nat :=
  match a.pending with
  | .operands texts => a.operands.length + texts.length
  | _ => a.operands.length

-- =============================================================== accepting

/-- Takes an option with its value. -/
def accept (a : Arguments) (rule : OptionRule) (text : String) :
    Except UsageFault Arguments :=
  if !rule.repeats && a.has rule.switch then .error .repeatedOption
  else if (rule.value.map (·.accepts text)).getD true then
    .ok { a with given := a.given ++ [(rule.switch, text)] }
  else .error .badValue

/-- Looks at what is pending. -/
def settle (a : Arguments) (kind : ValueKind) : Except UsageFault Arguments :=
  let rest := { a with pending := .nothing }
  match a.pending with
  | .nothing => .ok rest
  | .awaiting _ => .error .badValue
  | .value rule text => rest.accept rule text
  | .operands texts =>
    if texts.all kind.accepts then .ok { rest with operands := a.operands ++ texts }
    else .error .badValue

/-- Takes an option without a value; those that ask for help or for the
version end the reading. -/
def acceptFlag (a : Arguments) (kind : ValueKind) (rule : OptionRule) :
    Except UsageFault Arguments := do
  let a ← a.settle kind
  match rule.switch with
  | .help => .error .helpWanted
  | .version => .error .versionWanted
  | _ => a.accept rule ""

/-- Takes an option with the value attached to it, or waits for it. -/
def acceptOption (a : Arguments) (kind : ValueKind) (rule : OptionRule)
    (attached : Option String) : Except UsageFault Arguments := do
  let a ← a.settle kind
  match attached with
  | some text => a.accept rule text
  | none => return { a with pending := .awaiting rule }

-- ================================================================= options

/-- A long option and the value after its equals sign. -/
def splitLong (text : List Char) : String × Option String :=
  match text.dropWhile (· != '=') with
  | [] => (String.ofList text, none)
  | _ :: value => (String.ofList (text.takeWhile (· != '=')), some (String.ofList value))

/-- Takes a long option. -/
def takeLong (rules : List OptionRule) (kind : ValueKind) (text : List Char)
    (a : Arguments) : Except UsageFault Arguments :=
  let (name, attached) := splitLong text
  match rules.find? (·.long = name), attached with
  | none, _ => .error .unknownArgument
  | some rule, attached =>
    if rule.value.isSome then a.acceptOption kind rule attached
    else if attached.isSome then .error .surplusValue
    else a.acceptFlag kind rule

/-- The value attached to a short option, with or without an equals sign. -/
def attachedShort : List Char → Option String
  | [] => none
  | '=' :: value => some (String.ofList value)
  | value => some (String.ofList value)

/-- Takes short options that stand together. -/
def takeShorts (rules : List OptionRule) (kind : ValueKind) :
    List Char → Arguments → Except UsageFault Arguments
  | [], a => .ok a
  | c :: rest, a =>
    match rules.find? (·.short = some c) with
    | none => .error .unknownArgument
    | some rule =>
      if rule.value.isSome then a.acceptOption kind rule (attachedShort rest)
      else
        match a.acceptFlag kind rule with
        | .error fault => .error fault
        | .ok a => takeShorts rules kind rest a

-- ================================================================ operands

/-- Takes an operand, if there is room for it. -/
def takeOperand (rule : OperandRule) (text : String) (a : Arguments) :
    Except UsageFault Arguments :=
  if a.operandCount < rule.count || rule.orMore then
    match a.pending, rule.orMore with
    | .operands texts, true => .ok { a with pending := .operands (texts ++ [text]) }
    | _, _ => do
      let a ← a.settle rule.kind
      return { a with pending := .operands [text] }
  else .error .unknownArgument

-- ================================================================ commands

/-- Reads the arguments behind "--". -/
def readOperands (verb : Verb) : List String → Arguments → Except UsageFault Arguments
  | [], a => .ok a
  | text :: rest, a => do readOperands verb rest (← a.takeOperand verb.operands text)

/-- Reads the arguments of a command. -/
def readAll (verb : Verb) : List String → Arguments → Except UsageFault Arguments
  | [], a => .ok a
  | text :: rest, a =>
    match text.toList with
    | ['-', '-'] => readOperands verb rest a
    | '-' :: '-' :: long => do
      readAll verb rest (← a.takeLong verb.options verb.operands.kind long)
    | '-' :: c :: shorts => do
      readAll verb rest (← a.takeShorts verb.options verb.operands.kind (c :: shorts))
    | _ =>
      match a.pending with
      | .awaiting rule => readAll verb rest { a with pending := .value rule text }
      | _ => do readAll verb rest (← a.takeOperand verb.operands text)

/-- The arguments of a command, all looked at. -/
def read (verb : Verb) (texts : List String) : Except UsageFault Arguments := do
  let a ← readAll verb texts {}
  let a ← a.settle verb.operands.kind
  if a.operands.length < verb.operands.count then .error .missingArgument else return a

end Arguments
end GameArchive.Command
