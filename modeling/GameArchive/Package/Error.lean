/-
What can be wrong with packages, and what is out of the ordinary.
-/
import GameArchive.Cipher
import GameArchive.FileSystem
import GameArchive.Map.Report
import GameArchive.Package.Provider

namespace GameArchive.Package

-- ================================================================ errors

/-- What can become of the worker of a job. -/
inductive WorkerFault where
  /-- Its result was taken before. -/
  | joined
  /-- It broke down. -/
  | panicked
deriving DecidableEq, Repr

/-- What became of it, for people. -/
def WorkerFault.message : WorkerFault → String
  | .joined => "job already joined"
  | .panicked => "extraction thread panicked"

/-- Why an operation on packages fails. -/
inductive Error where
  /-- The file system refuses. -/
  | file (fault : FileSystem.Fault)
  /-- The path of a file to convert names no file. -/
  | unnamedInput
  /-- The path of the result of a conversion names no file. -/
  | unnamedOutput
  /-- The keys of a provider, or of any, do not open a container. -/
  | providerMismatch (provider : Option Provider) (container : String)
  /-- The path of a container names no file. -/
  | unnamedContainer (path : String)
  /-- A container counts more entries than its file can hold. -/
  | longTable (container : String) (count size : Nat)
  /-- The path of an entry does not end, or is not printable. -/
  | badEntryPath (container : String) (index : Nat)
  /-- The contents of an entry lie past the end of the container. -/
  | missingPayload (path : String) (offset needed available : Nat)
  /-- The path of an entry leads out of the output folder. -/
  | escapingPath (path : String)
  /-- The path of a manifest names no file. -/
  | unnamedManifest (path : String)
  /-- There is no cipher of this number. -/
  | unknownCipher (id : UInt8)
  /-- There is no format of this version. -/
  | unknownVersion (version : UInt16)
  /-- There is no secret for this selector. -/
  | badSelector (selector : UInt8)
  /-- The data are shorter than they have to be. -/
  | shortData (expected actual : Nat)
  /-- A cipher refuses its input. -/
  | cipher (fault : Cipher.Fault)
  /-- A texture cannot be decoded. -/
  | texture (cause : DecodeError)
  /-- A map cannot be transcoded. -/
  | map (cause : Map.Error)
  /-- There is no provider of this name. -/
  | unknownProvider (name : String)
  /-- A container has no such entry. -/
  | entryNotFound (container path : String)
  /-- The job was stopped before this item. -/
  | cancelled
  /-- The worker of the job is gone. -/
  | worker (fault : WorkerFault)
deriving DecidableEq, Repr

namespace Error

/-- What is wrong, for people. -/
def message : Error → String
  | .file fault => "I/O error: " ++ fault.message
  | .unnamedInput => "I/O error: input has no file name"
  | .unnamedOutput => "I/O error: output has no file name"
  | .providerMismatch provider container =>
    "Container " ++ container ++ " is not a "
      ++ ((provider.map Provider.name).getD "any") ++ " package"
  | .unnamedContainer path => "Malformed container: bad file name: " ++ path
  | .longTable container count size =>
    "Malformed container: " ++ container ++ s!": {count} entries do not fit in {size} bytes"
  | .badEntryPath container index =>
    "Malformed container: " ++ container ++ s!": entry {index} has no valid path"
  | .missingPayload path offset needed available =>
    "Malformed container: " ++ path
      ++ s!": payload at {offset} needs {needed} bytes, {available} available"
  | .escapingPath path =>
    "Malformed container: entry path escapes the output directory: " ++ path
  | .unnamedManifest path => "Malformed manifest: bad file name: " ++ path
  | .unknownCipher id => s!"Unsupported cipher: {id.toNat}"
  | .unknownVersion version => s!"Unsupported version: {version.toNat}"
  | .badSelector selector => s!"Invalid key selector: {selector.toNat}"
  | .shortData expected actual => s!"Invalid file size: expected {expected}, got {actual}"
  | .cipher .emptyBuffer => "Cannot decrypt an empty buffer"
  | .cipher (.badKey c length) => "Cipher error: " ++ c.keyComplaint length
  | .texture cause => "Texture error: " ++ cause.message
  | .map cause => "Map error: " ++ cause.message
  | .unknownProvider name => "Unknown provider: " ++ name
  | .entryNotFound container path => "Entry " ++ path ++ " not found in " ++ container
  | .cancelled => "Operation cancelled"
  | .worker fault => "Worker failed: " ++ fault.message

/-- Whether a container itself is inconsistent. -/
def isMalformedContainer : Error → Bool
  | .unnamedContainer _ | .longTable .. | .badEntryPath .. | .missingPayload ..
  | .escapingPath _ => true
  | _ => false

/-- Whether the data are damaged, rather than of another kind. -/
def isCorruption : Error → Bool
  | .unnamedContainer _ | .longTable .. | .badEntryPath .. | .missingPayload ..
  | .escapingPath _ | .unnamedManifest _ | .shortData .. | .cipher (.badKey ..) => true
  | .texture cause => cause.isCorruption
  | .map cause => cause.isCorruption
  | _ => false

/-- Whether it only means that another provider's keys are needed. -/
def isProviderMismatch : Error → Bool
  | .providerMismatch .. => true
  | _ => false

/-- Whether a job can go on with its next item. It can, unless it was
stopped or has lost its worker. -/
def isRecoverable : Error → Bool
  | .cancelled | .worker _ => false
  | _ => true

end Error

-- ============================================================== warnings

/-- What was out of the ordinary. -/
inductive Warning where
  /-- An entry has fewer bytes than it declares. -/
  | shortPayload (path : String) (size declared : Nat)
  /-- Something in a map. -/
  | map (warning : Map.Warning)
deriving DecidableEq, Repr

/-- What was out of the ordinary, for people. -/
def Warning.message : Warning → String
  | .shortPayload path size declared =>
    path ++ s!": payload holds {size} bytes, {declared} declared"
  | .map warning => warning.message

/-- The steps of working on packages. -/
abbrev Step := Reported Warning Error

end GameArchive.Package
