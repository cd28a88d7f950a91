/-
Containers, the archives that hold the files of the game.

A container begins with a digest that is not read, a header with the folder
it was made in and the number of its entries, and a record for each entry;
the contents follow. Header and records are encrypted one by one with the
header secret of the provider, and only the right secret gives a printable
path. Contents can be encrypted too, in strides that do not depend on each
other, and the last blocks of padding may be missing from the file.

The table is read when a container is opened, contents when they are asked
for. A file that has changed in between keeps the table and the length that
it was opened with, and its contents are what stands at their place now.
-/
import GameArchive.Package.Wrapper
import GameArchive.Text.Lossy
import GameArchive.Texture

namespace GameArchive.Package

-- ================================================================ entries

/-- What the table of a container says of one file. Its path is never read
with backslashes. -/
structure Entry where
  path : String
  offset : Nat
  packedSize : UInt32
  unpackedSize : UInt32
  isEncrypted : Bool
  slashed : '\\' ∉ path.toList
deriving DecidableEq, Repr

namespace Entry

/-- The length of a path field. -/
def pathSize : Nat := 261

/-- The length of a record. -/
def recordSize : Nat := 288

/-- The last component of the path. -/
def fileName (e : Entry) : String := Text.fileName e.path

/-- Whether a byte can be part of a path. -/
def isPathByte (b : UInt8) : Bool := 0x20 ≤ b && b != 0x7F

/-- The path in a field that ends in zeros, with slashes between its
components, if it ends and is printable. -/
def pathOf? (field : Bytes) : Option Text.Slashed :=
  let path := Bytes.beforeZero field
  if path.length < field.length && path.all isPathByte then
    some (Text.slashed (Text.ofBytes path))
  else none

/-- The entry of a decrypted record, where contents begin at `base`. -/
def ofRecord? (base : Nat) (record : Bytes) : Option Entry :=
  match pathOf? (record.take pathSize) with
  | none => none
  | some ⟨path, slashed⟩ =>
    some ⟨path, base + (record.u32At pathSize).toNat, record.u32At (pathSize + 4),
      record.u32At (pathSize + 8), record.byteAt (pathSize + 13) != 0, slashed⟩

/-- A path as it is looked up: with slashes, and none at its beginning. -/
def lookupPath (path : String) : String :=
  String.ofList ((Text.forwardSlashes path).toList.dropWhile (· == '/'))

/-- Whether a path asks for this entry, in any case and with either
slash. -/
def answersTo (e : Entry) (path : String) : Bool :=
  Text.sameIgnoringCase (String.ofList (e.path.toList.dropWhile (· == '/'))) (lookupPath path)

end Entry

-- ================================================================= opening

/-- An opened container. Its file may be at a location, and may then have
another length by now than when it was opened. -/
structure Container where
  name : String
  provider : Provider
  directory : String
  entries : List Entry
  openedSize : Nat
  file : Bytes
  home : Option Location
deriving DecidableEq, Repr

namespace Container

/-- The length of the digest at the beginning. -/
def digestSize : Nat := 33

/-- The length of the header. -/
def headerSize : Nat := 272

/-- Where the table begins. -/
def tableStart : Nat := digestSize + headerSize

/-- Where the contents begin behind a table of `count` records. -/
def payloadStart (count : Nat) : Nat := tableStart + count * Entry.recordSize

/-- The entries of encrypted records, the first of which is `index`. -/
def readEntries (name : String) (key : Bytes) (base : Nat) :
    (index : Nat) → List Bytes → Except Error (List Entry)
  | _, [] => .ok []
  | index, record :: rest =>
    match Entry.ofRecord? base (Key.decipher key record) with
    | none => .error (.badEntryPath name index)
    | some entry => do
      let tail ← readEntries name key base (index + 1) rest
      return entry :: tail

/-- Opens a container, which has to be long enough for a header, with the
secrets of a provider. -/
def openWith (name : String) (file : Bytes) (provider : Provider) : Except Error Container :=
  let key := Key.ofSecret provider.headerSecret name
  let header := Key.decipher key (file.slice digestSize headerSize)
  match Entry.pathOf? (header.take Entry.pathSize) with
  | none => .error (.providerMismatch (some provider) name)
  | some ⟨directory, _⟩ =>
    let count := (header.u32At (Entry.pathSize + 4)).toNat
    if file.length < payloadStart count then .error (.longTable name count file.length)
    else do
      let records := Bytes.pieces Entry.recordSize count (file.drop tableStart)
      let entries ← readEntries name key (payloadStart count) 0 records
      return ⟨name, provider, directory, entries, file.length, file, none⟩

/-- Opens a container with the secrets of the first provider that fit. -/
def openAny (name : String) (file : Bytes) : Except Error Container :=
  match Provider.all.findSome? fun p => (openWith name file p).toOption with
  | some container => .ok container
  | none => .error (.providerMismatch none name)

/-- Opens a container of this name, with the secrets of a given provider or
of any. -/
def parse (name : String) (provider : Option Provider) (file : Bytes) :
    Except Error Container :=
  if file.length < tableStart then .error (.shortData tableStart file.length)
  else
    match provider with
    | some p => openWith name file p
    | none => openAny name file

/-- Opens the container at a path. -/
def read (files : FileSystem) (path : PathName) (provider : Option Provider) :
    Except Error Container := do
  match path.fileName? with
  | none => .error (.unnamedContainer path.text)
  | some name =>
    let file ← (files.read path).mapError .file
    let container ← parse name provider file
    return { container with home := (files.locate path).toOption }

/-- The container with its file as it is now. -/
def refresh (files : FileSystem) (c : Container) : Container :=
  match c.home.bind files.node? with
  | some (.file data) => { c with file := data }
  | _ => c

/-- What is opened keeps the bytes it was opened on, and has no file to be read from again. -/
theorem openWith_ok {name : String} {file : Bytes} {provider : Provider} {c : Container}
    (h : openWith name file provider = .ok c) :
    c.file = file ∧ c.openedSize = file.length ∧ c.home = none := by
  simp only [openWith, bind, Except.bind, pure, Except.pure] at h
  split at h
  · cases h
  · split at h
    · cases h
    · split at h
      · cases h
      · cases h
        exact ⟨rfl, rfl, rfl⟩

/-- A container opened from bytes has them all, and nothing can change
them. -/
theorem parse_ok {name : String} {provider : Option Provider} {file : Bytes} {c : Container}
    (h : parse name provider file = .ok c) :
    c.file = file ∧ c.openedSize = file.length ∧ c.home = none := by
  simp only [parse] at h
  split at h
  · cases h
  · split at h
    · exact openWith_ok h
    · simp only [openAny] at h
      split at h
      next found hfound =>
        cases h
        obtain ⟨p, _, hp⟩ := List.exists_of_findSome?_eq_some hfound
        cases ho : openWith name file p with
        | error e => simp [ho, Except.toOption] at hp
        | ok d =>
          simp only [ho, Except.toOption, Option.some.injEq] at hp
          exact hp ▸ openWith_ok ho
      next => cases h

/-- The first entry that a path asks for. -/
def find? (c : Container) (path : String) : Option Entry :=
  c.entries.find? (·.answersTo path)

-- ================================================================ contents

/-- Contents are decrypted in strides of this length. -/
def strideSize : Nat := 0x10000

/-- How many bytes of contents may be missing from the file. -/
def slack : Nat := 16

/-- Decrypts contents stride by stride. -/
def decipherStrides (key data : Bytes) : Bytes :=
  (data.strides strideSize).flatMap (Key.decipher key)

/-- The key of an entry's contents. -/
def payloadKey (c : Container) (e : Entry) : Bytes :=
  Key.ofSecret c.provider.dataSecret e.fileName

/-- The first `length` bytes of an entry's contents, decrypted if they have
to be. How many of them there are is decided by the length that the file was
opened with. -/
def readPayload (c : Container) (e : Entry) (length : Nat) : Except Error Bytes :=
  if e.packedSize = 0 || length = 0 then .ok []
  else
    let available := c.openedSize - e.offset
    let count := min length available
    if slack < length - count then
      .error (.missingPayload e.path e.offset length available)
    else
      let stored := c.file.slice e.offset count
      if stored.length < count then .error (.file .cutShort)
      else if e.isEncrypted then .ok (decipherStrides (c.payloadKey e) stored)
      else .ok stored

/-- The contents of an entry, cut to the size that it declares. -/
def readEntry (c : Container) (e : Entry) : Step Bytes := do
  let data ← Reported.ofExcept (c.readPayload e e.packedSize.toNat)
  if data.length < e.unpackedSize.toNat then
    Reported.warn [.shortPayload e.path data.length e.unpackedSize.toNat]
  return data.take e.unpackedSize.toNat

-- =============================================================== detection

/-- How the contents of an entry are encoded further. -/
structure Flags where
  isWrapped : Bool
  isTexture : Bool
deriving DecidableEq, Repr

/-- How many bytes are looked at to find out. -/
def peekSize : Nat := 32

/-- Looks at the beginning of an entry's contents. Those too short for the
header of a wrapped file are not looked at. -/
def peek (c : Container) (e : Entry) : Except Error Flags := do
  if e.packedSize.toNat < WrapperHeader.size then return ⟨false, false⟩
  else
    let head ← c.readPayload e (min peekSize e.packedSize.toNat)
    return ⟨Wrapper.hasHeader head, Texture.isTexture head⟩

end Container
end GameArchive.Package
