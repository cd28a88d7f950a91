/-
The program: it reads the files that a command needs, carries the command
out on them, and writes what has changed.
-/
import GameArchive.Command.Line
import GameArchive.Command.Need

namespace GameArchive.Program

open Command

/-- The bytes of a file, if it can be read. -/
def readFile (path : PathName) : IO (Option Bytes) := do
  try
    let data ← IO.FS.readBinFile path.text
    return some data.data.toList
  catch _ => return none

/-- The files with those at paths added, as far as they can be read. -/
def readFiles (files : FileSystem) (paths : List PathName) : IO FileSystem := do
  let mut files := files
  for path in paths do
    if let some data ← readFile path then files := (files.save path data).2
  return files

/-- The file system with nothing but the working folder. -/
def workingFiles : IO FileSystem := do
  let folder := PathName.ofText (← IO.currentDir).toString
  return { ((FileSystem.mk [] []).makeFolders folder).2 with workingFolder := folder.pieces }

/-- Writes a node. -/
def writeNode (location : Location) (node : Node) : IO Unit := do
  let path := PathName.text ⟨true, location⟩
  match node with
  | .folder => IO.FS.createDirAll path
  | .file data => IO.FS.writeBinFile path (ByteArray.mk data.toArray)

/-- Carries out a command. -/
def carryOut (invocation : Invocation) : IO UInt32 := do
  let files ← readFiles (← workingFiles) invocation.request.named
  let files ← readFiles files (invocation.request.listed files)
  let outcome := invocation.run files
  for (location, node) in changes files outcome.files do writeNode location node
  IO.print outcome.printed
  match outcome.failure with
  | none => return 0
  | some failure =>
    for line in failure.lines do IO.eprintln line
    return 1

/-- Says what is wrong with the command line. -/
def explain (fault : UsageFault) : IO UInt32 := do
  if fault.isHarmless then
    IO.println fault.message
    return 0
  else
    IO.eprintln fault.message
    return 2

end GameArchive.Program

/-- Reads the command line and carries out the command. -/
def main (arguments : List String) : IO UInt32 :=
  match GameArchive.Command.Invocation.parse arguments with
  | .error fault => GameArchive.Program.explain fault
  | .ok invocation => GameArchive.Program.carryOut invocation
