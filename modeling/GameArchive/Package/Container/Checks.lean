/-
Opening a container with every check.

Of a container that is opened, the header and the table are read and
decrypted. Each of these steps looks at what it is given: whether all bytes
are there, whether a key and a buffer fit a cipher, whether a record is long
enough for its fields. A container has all of this, so it is opened without
these checks elsewhere; here they are made one by one.
-/
import GameArchive.Package.Container

namespace GameArchive.Package.Container

open Bytes

/-- Bytes of the file that all have to be there. -/
def readExact (file : Bytes) (offset length : Nat) : Except Error Bytes :=
  let read := file.slice offset length
  if read.length < length then .error (.file .cutShort) else .ok read

/-- Decryption that looks at its buffer and its key. -/
def decryptExact (key data : Bytes) : Except Error Bytes :=
  (Cipher.rijndael.decrypt data key).mapError .cipher

/-- The entry of a record that may end before its fields do. -/
def entryChecked? (base : Nat) (record : Bytes) : Option Entry := do
  let ⟨path, slashed⟩ ← Entry.pathOf? (record.take Entry.pathSize)
  let offset ← record.u32At? Entry.pathSize
  let packedSize ← record.u32At? (Entry.pathSize + 4)
  let unpackedSize ← record.u32At? (Entry.pathSize + 8)
  let encrypted ← record[Entry.pathSize + 13]?
  return ⟨path, base + offset.toNat, packedSize, unpackedSize, encrypted != 0,
    slashed⟩

/-- The entries of encrypted records, each decrypted with all checks. -/
def readEntriesChecked (name : String) (key : Bytes) (base : Nat) :
    (index : Nat) → List Bytes → Except Error (List Entry)
  | _, [] => .ok []
  | index, record :: rest => do
    let clear ← decryptExact key record
    match entryChecked? base clear with
    | none => .error (.badEntryPath name index)
    | some entry =>
      let tail ← readEntriesChecked name key base (index + 1) rest
      return entry :: tail

/-- The container of a header that counts these records. -/
def readTableChecked (name : String) (provider : Provider) (file : Bytes)
    (directory : String) (count : Nat) : Except Error Container :=
  let size := count * Entry.recordSize
  if file.length < tableStart + size then
    .error (.longTable name count file.length)
  else do
    let key := Key.ofSecret provider.headerSecret name
    let table ← readExact file tableStart size
    let records := pieces Entry.recordSize count table
    let entries ← readEntriesChecked name key (tableStart + size) 0 records
    return ⟨name, provider, directory, entries, file.length, file, none⟩

/-- Opens a container with every step that could fail. -/
def parseChecked (name : String) (provider : Provider) (file : Bytes) :
    Except Error Container :=
  if file.length < tableStart then .error (.shortData tableStart file.length)
  else do
    let stored ← readExact file digestSize headerSize
    let header ← decryptExact (Key.ofSecret provider.headerSecret name) stored
    match Entry.pathOf? (header.take Entry.pathSize) with
    | none => .error (.providerMismatch (some provider) name)
    | some ⟨directory, _⟩ =>
      match header.u32At? (Entry.pathSize + 4) with
      | none => .error (.file .cutShort)
      | some count =>
        readTableChecked name provider file directory count.toNat

end GameArchive.Package.Container
