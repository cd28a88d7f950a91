/-
Carrying out commands on a file system.

A command prints a text, may change files, and may fail. A failure is either
said in the words of the command, or an error with what the command was
about when it arose.
-/
import GameArchive.Command.Usage
import GameArchive.Extraction.Run
import GameArchive.Listing.Column
import GameArchive.Listing.Wildcard
import GameArchive.Package.Manifest

namespace GameArchive.Command

open Package (Container Entry Error Manifest NamedFile Provider)
open Extraction (Ending Extractor Report Session)

-- ================================================================ outcomes

/-- Why a command fails. -/
inductive Failure where
  /-- For a reason of its own. -/
  | stated (reason : String)
  /-- With an error, while it was about something. -/
  | caused (context : Option String) (cause : Error)
deriving DecidableEq, Repr

/-- The lines that tell of a failure. -/
def Failure.lines : Failure → List String
  | .stated reason => [reason]
  | .caused context cause => context.toList ++ [cause.message]

/-- What a command has printed, whether it has failed, and the files
after it. -/
structure Outcome where
  printed : String
  failure : Option Failure
  files : FileSystem
deriving DecidableEq, Repr

/-- The outcome of a command that does not change files. -/
def Outcome.ofText (files : FileSystem) : Except Failure String → Outcome
  | .ok text => ⟨text, none, files⟩
  | .error failure => ⟨"", some failure, files⟩

/-- A result, or an error in its context. -/
def inContext {α : Type} (context : String) (x : Except Error α) : Except Failure α :=
  x.mapError (Failure.caused (some context))

/-- Lines as a text. -/
def textOfLines (lines : List String) : String := String.join (lines.map (· ++ "\n"))

-- ================================================================ manifest

/-- Opens a manifest. -/
def openManifest (files : FileSystem) (path : PathName) : Except Failure Manifest :=
  inContext ("Failed to open manifest " ++ path.text) (Manifest.read files path)

/-- What is told of a manifest. -/
def manifestLines (m : Manifest) : List String :=
  let cipher := ((Cipher.ofId? m.header.cipherId).map Cipher.name).getD
    (toString m.header.cipherId.toNat)
  ["Manifest:  " ++ m.name, "Provider:  " ++ m.provider.name,
   "Cipher:    " ++ cipher ++ s!" (selector {m.header.selector.toNat})",
   s!"Packages:  {m.containers.length}", ""] ++ m.containers

/-- Tells what a manifest lists. -/
def showManifest (files : FileSystem) (path : PathName) : Except Failure String := do
  let m ← openManifest files path
  return textOfLines (manifestLines m)

-- ==================================================================== list

/-- What is found in the contents of an entry, if it is looked for. -/
def findFlags (c : Container) (detect : Bool) (e : Entry) :
    Except Failure Container.Flags :=
  if detect then inContext ("Failed to read " ++ e.path) (c.peek e) else .ok ⟨false, false⟩

/-- The rows of a listing. -/
def listRows (c : Container) (r : ListRequest) :
    List Entry → Except Failure (List (List String))
  | [] => .ok []
  | e :: rest => do
    let flags ← findFlags c r.detect e
    let tail ← listRows c r rest
    return (Listing.Column.select r.long r.detect).map (·.cell e flags) :: tail

/-- Lists the entries of a container. -/
def listContainer (files : FileSystem) (r : ListRequest) : Except Failure String := do
  let c ← inContext ("Failed to open container " ++ r.container.text)
    (Container.read files r.container r.provider)
  let entries := c.entries.filter fun e => Listing.matchesPattern e.path r.pattern
  if entries.isEmpty then
    return textOfLines ["No entries found matching pattern: " ++ r.pattern]
  else if !r.long && !r.detect then return textOfLines (entries.map Entry.path)
  else
    let rows ← listRows c r entries
    let styles := (Listing.Column.select r.long r.detect).map Listing.Column.style
    return Listing.tableText styles rows

-- ================================================================= extract

/-- The folder that a file is in. -/
def folderOf (path : PathName) : PathName :=
  match path.parent? with
  | some parent => if parent.isEmpty then PathName.ofText "." else parent
  | none => PathName.ofText "."

/-- The extractor of a request, for the containers in a folder. -/
def extractorFor (r : ExtractRequest) (folder : PathName) : Extractor where
  source := Extraction.folderSource folder r.provider
  output := r.output
  options := r.options

/-- What an extraction has achieved, or the error that a strict one ended
with, and the files after it. -/
def achieved (run : Session × Ending) : Except Failure Report × FileSystem :=
  match run.2 with
  | .failed cause => (.error (.caused none cause), run.1.files)
  | _ => (.ok run.1.report, run.1.files)

/-- Extracts the containers of a manifest. -/
def extractManifest (r : ExtractRequest) (files : FileSystem) :
    Except Failure Report × FileSystem :=
  match r.inputs with
  | [path] =>
    if r.entries.isEmpty then
      match openManifest files path with
      | .error failure => (.error failure, files)
      | .ok m =>
        achieved ((extractorFor r (folderOf path)).extractContainers .silent m.containers
          files {})
    else (.error (.stated "--entry selects files of a single container, not of a manifest"),
      files)
  | _ => (.error (.stated "--manifest takes exactly one manifest path"), files)

/-- Extracts all or some entries of a container. -/
def extractInput (r : ExtractRequest) (files : FileSystem) (path : PathName) :
    Except Failure Report × FileSystem :=
  match path.fileName? with
  | none => (.error (.stated ("Not a container path: " ++ path.text)), files)
  | some name =>
    let extractor := extractorFor r (folderOf path)
    if r.entries.isEmpty then
      achieved (extractor.extractContainers .silent [name] files {})
    else
      achieved (extractor.extract .silent (r.entries.map fun entry => ⟨name, entry⟩) files {})

/-- Extracts containers one after the other, with what has been achieved
before. -/
def extractInputs (r : ExtractRequest) :
    Report → FileSystem → List PathName → Except Failure Report × FileSystem
  | report, files, [] => (.ok report, files)
  | report, files, path :: rest =>
    match extractInput r files path with
    | (.error failure, files) => (.error failure, files)
    | (.ok part, files) =>
      extractInputs r
        ⟨report.written ++ part.written, report.failures ++ part.failures⟩ files rest

/-- Extracts what is asked for. -/
def extractAll (r : ExtractRequest) (files : FileSystem) :
    Except Failure Report × FileSystem :=
  if r.isManifest then extractManifest r files else extractInputs r {} files r.inputs

/-- Extracts what is asked for, and tells how many files that were. -/
def runExtract (r : ExtractRequest) (quiet : Bool) (files : FileSystem) : Outcome :=
  match extractAll r files with
  | (.error failure, files) => ⟨"", some failure, files⟩
  | (.ok report, files) =>
    let printed :=
      if quiet then ""
      else textOfLines [s!"Extracted {report.written.length} files to " ++ r.output.text]
    let failure :=
      if report.failures.isEmpty then none
      else some (.stated s!"{report.failures.length} items failed to extract")
    ⟨printed, failure, files⟩

-- ================================================================= convert

/-- Converts a file, and tells where the result is. -/
def runConvert (r : ConvertRequest) (files : FileSystem) : Outcome :=
  match NamedFile.convert r.options files r.input r.output with
  | (.error cause, files) =>
    ⟨"", some (.caused (some ("Failed to convert " ++ r.input.text)) cause), files⟩
  | (.ok written, files) =>
    ⟨textOfLines [r.input.text ++ " -> " ++ written.text], none, files⟩

-- ============================================================ all commands

/-- Carries out a command. -/
def Invocation.run (i : Invocation) (files : FileSystem) : Outcome :=
  match i.request with
  | .manifest path => .ofText files (showManifest files path)
  | .list r => .ofText files (listContainer files r)
  | .extract r => runExtract r i.quiet files
  | .convert r => runConvert r files
  | .completions _ => .ofText files (.ok "")

end GameArchive.Command
