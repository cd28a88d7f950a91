/-
Containers to be made.

A draft lists files with their contents; its bytes are those of a container
that opens with the secrets of its provider and holds these files, one
after the other behind the table. Building it goes through the files once,
and each step of that could fail.
-/
import GameArchive.Package.Container

namespace GameArchive.Package

/-- A file to be put into a container. -/
structure DraftEntry where
  path : String
  data : Bytes
  isEncrypted : Bool
deriving DecidableEq, Repr

/-- A container to be made. -/
structure Draft where
  name : String
  provider : Provider
  directory : String
  entries : List DraftEntry
deriving DecidableEq, Repr

namespace Draft

/-- The folder that a container is made in, if nothing else is said. -/
def usualDirectory : String := "D:\\cso2\\data\\"

/-- A path with backslashes, cut and filled up to the length of a field. -/
def pathField (path : String) : Bytes :=
  let text := String.ofList (path.toList.map fun c => if c = '/' then '\\' else c)
  Bytes.fillTo Entry.pathSize ((Bytes.ofString text).take (Entry.pathSize - 1))

/-- What follows the last slash of either kind. -/
def fileName (path : String) : String :=
  String.ofList (Text.lastPart (fun c => c == '/' || c == '\\') path.toList)

/-- The contents of a file as they are stored. -/
def storedData (draft : Draft) (e : DraftEntry) : Bytes :=
  if e.isEncrypted then
    let key := Key.ofSecret draft.provider.dataSecret (fileName e.path)
    ((e.data.padTo 16).strides Container.strideSize).flatMap (Key.encipher key)
  else e.data

/-- The record of a file whose contents begin at `offset` behind the
table. -/
def record (offset : Nat) (e : DraftEntry) (stored : Bytes) : Bytes :=
  Bytes.fillTo Entry.recordSize (pathField e.path
    ++ (Bytes.ofNat 4 offset ++ (Bytes.ofNat 4 stored.length
      ++ (Bytes.ofNat 4 e.data.length ++ [0, if e.isEncrypted then 1 else 0]))))

/-- The header of the container. -/
def header (draft : Draft) : Bytes :=
  Bytes.fillTo Container.headerSize (pathField draft.directory
    ++ (Bytes.ofNat 4 1 ++ Bytes.ofNat 4 draft.entries.length))

/-- The digest at the beginning. -/
def digest (draft : Draft) : Bytes :=
  Bytes.fillTo Container.digestSize (Key.ofSecret [] draft.name)

/-- The encrypted records of files, the first of which begins at
`offset`. -/
def table (draft : Draft) (key : Bytes) : (offset : Nat) → List DraftEntry → Bytes
  | _, [] => []
  | offset, e :: rest =>
    let stored := draft.storedData e
    Key.encipher key (record offset e stored)
      ++ draft.table key (offset + stored.length) rest

/-- The bytes of the container. -/
def toBytes (draft : Draft) : Bytes :=
  let key := Key.ofSecret draft.provider.headerSecret draft.name
  draft.digest ++ (Key.encipher key draft.header
    ++ (draft.table key 0 draft.entries ++ draft.entries.flatMap draft.storedData))

-- ================================================================ building

/-- Encrypts strides, each for itself. -/
def sealStrides (key : Bytes) : List Bytes → Except Cipher.Fault Bytes
  | [] => .ok []
  | stride :: rest => do
    let head ← Cipher.rijndael.encrypt stride key
    let tail ← sealStrides key rest
    return head ++ tail

/-- Makes the contents of a file what is stored of them. -/
def sealData (draft : Draft) (e : DraftEntry) : Except Cipher.Fault Bytes :=
  if !e.isEncrypted || e.data.isEmpty then .ok e.data
  else
    sealStrides (Key.ofSecret draft.provider.dataSecret (fileName e.path))
      ((e.data.padTo 16).strides Container.strideSize)

/-- Makes the records of files whose contents come behind `payload`, and
puts their contents there. -/
def sealFiles (draft : Draft) (key : Bytes) :
    (payload : Bytes) → List DraftEntry → Except Cipher.Fault (Bytes × Bytes)
  | payload, [] => .ok ([], payload)
  | payload, e :: rest => do
    let stored ← draft.sealData e
    let head ← Cipher.rijndael.encrypt (record payload.length e stored) key
    let (records, whole) ← draft.sealFiles key (payload ++ stored) rest
    return (head ++ records, whole)

/-- Builds the container, file by file. -/
def build (draft : Draft) : Except Cipher.Fault Bytes := do
  let key := Key.ofSecret draft.provider.headerSecret draft.name
  let (records, payload) ← draft.sealFiles key [] draft.entries
  let header ← Cipher.rijndael.encrypt draft.header key
  return draft.digest ++ (header ++ (records ++ payload))

end Draft
end GameArchive.Package
