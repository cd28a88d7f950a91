/-
Containers behind a reader.

All that is read of a container goes through one reader, which stands
somewhere in the bytes and is moved by whatever is read. Attempts to open
with the secrets of several providers share it, one after the other, and so
do all contents that are read later; an attempt that fails leaves it where
it stopped. Which errors let the next provider be tried is decided error by
error, and each step could fail in a way of its own.
-/
import GameArchive.Package.Container.Checks

namespace GameArchive.Package

open Bytes

-- ================================================================= reader

/-- Bytes that are read from a position on. -/
structure Reader where
  data : Bytes
  position : Nat

/-- Work with a reader. If it fails, the reader stays where it is by
then. -/
abbrev Reading := ExceptT Error (StateM Reader)

namespace Reader

/-- Goes to a position, which may lie behind the end. -/
def seek (position : Nat) : Reading Unit :=
  modify fun r => { r with position }

/-- Goes to the end, and tells where that is. -/
def seekEnd : Reading Nat := do
  let r ← get
  set { r with position := r.data.length }
  return r.data.length

/-- The next `length` bytes, which all have to be there. -/
def next (length : Nat) : Reading Bytes := do
  let r ← get
  let read := r.data.slice r.position length
  if read.length < length then
    set { r with position := r.data.length }
    throw (.file .cutShort)
  else
    set { r with position := r.position + length }
    return read

/-- The `length` bytes at a position. -/
def readAt (position length : Nat) : Reading Bytes := do
  seek position
  next length

/-- Does work with a reader: how it ends, and how the reader stands then. -/
def runOn {α : Type} (work : Reading α) (r : Reader) : Except Error α × Reader :=
  Id.run (work.run.run r)

end Reader

namespace Container

open Reader

-- ================================================================ opening

/-- Decrypts a copy of the header with one provider's secrets and reads the
table of a file of this length. -/
def readTableFrom (name : String) (header : Bytes) (length : Nat)
    (provider : Provider) : Reading (String × List Entry) := do
  let key := Key.ofSecret provider.headerSecret name
  let clear ← liftExcept (decryptExact key header)
  match Entry.pathOf? (clear.take Entry.pathSize) with
  | none => throw (.providerMismatch (some provider) name)
  | some ⟨directory, _⟩ =>
    match clear.u32At? (Entry.pathSize + 4) with
    | none => throw (.file .cutShort)
    | some count =>
      let size := count.toNat * Entry.recordSize
      if length < tableStart + size then
        throw (.longTable name count.toNat length)
      else do
        let table ← readAt tableStart size
        let records := pieces Entry.recordSize count.toNat table
        let entries ← liftExcept
          (readEntriesChecked name key (tableStart + size) 0 records)
        return (directory, entries)

/-- Tries one provider after the other. Where there are several, the next
one is tried after an error that can be a matter of the secrets. -/
def tryProviders (name : String) (header : Bytes) (length : Nat)
    (detecting : Bool) :
    List Provider → Reading (Option (Provider × String × List Entry))
  | [] => return none
  | provider :: rest =>
    tryCatch
      (do
        let table ← readTableFrom name header length provider
        return some (provider, table))
      fun e =>
        if detecting && (e.isProviderMismatch || e.isMalformedContainer) then
          tryProviders name header length detecting rest
        else throw e

/-- The container that was found, if one was. -/
def conclude (name : String) (length : Nat) :
    Option (Provider × String × List Entry) → Reading Container
  | none => throw (.providerMismatch none name)
  | some (provider, directory, entries) => do
    let r ← get
    return ⟨name, provider, directory, entries, length, r.data, none⟩

/-- Opens the container behind a reader with the secrets of these
providers. -/
def load (name : String) (providers : List Provider) : Reading Container := do
  let length ← seekEnd
  if length < tableStart then throw (.shortData tableStart length)
  else do
    let header ← readAt digestSize headerSize
    let detecting : Bool := 1 < providers.length
    let found ← tryProviders name header length detecting providers
    conclude name length found

-- =============================================================== contents

/-- Fills buffers one after the other with the next bytes, and decodes each
for itself. -/
def fill (decode : Bytes → Except Error Bytes) : List Bytes → Reading Bytes
  | [] => return []
  | buffer :: rest => do
    let stored ← next buffer.length
    let clear ← liftExcept (decode stored)
    let tail ← fill decode rest
    return clear ++ tail

/-- The first `length` bytes of an entry's contents, stride by stride. -/
def readPayloadFrom (c : Container) (e : Entry) (length : Nat) :
    Reading Bytes := do
  if e.packedSize = 0 || length = 0 then return []
  else
    let available := c.openedSize - e.offset
    let count := min length available
    if slack < length - count then
      throw (.missingPayload e.path e.offset length available)
    else do
      let decode :=
        if e.isEncrypted then decryptExact (c.payloadKey e) else .ok
      seek e.offset
      fill decode ((zeros count).strides strideSize)

/-- Looks at the beginning of an entry's contents. -/
def peekFrom (c : Container) (e : Entry) : Reading Flags := do
  if e.packedSize.toNat < WrapperHeader.size then return ⟨false, false⟩
  else do
    let head ← readPayloadFrom c e (min peekSize e.packedSize.toNat)
    return ⟨Wrapper.hasHeader head, Texture.isTexture head⟩

end Container
end GameArchive.Package
