/-
Manifests, the lists of containers that belong together.

A manifest is a header of eight bytes and an encrypted body, which names a
file in every line that ends in CRLF. The key of the body depends on the
file name of the manifest, so that a renamed one cannot be read.
-/
import GameArchive.Bytes.LittleEndian
import GameArchive.Package.Body
import GameArchive.Text.Lossy
import GameArchive.Text.Parts

namespace GameArchive.Package

/-- The header of a manifest. -/
structure ManifestHeader where
  version : UInt16
  cipherId : UInt8
  selector : UInt8
  bodySize : UInt32
deriving DecidableEq, Repr

namespace ManifestHeader

/-- The length of the header. -/
def size : Nat := 8

/-- The only version there is. -/
def knownVersion : UInt16 := 2

/-- Reads the header at the beginning of data. -/
def parse (data : Bytes) : Except Error ManifestHeader :=
  if data.length < size then .error (.shortData size data.length)
  else .ok ⟨data.u16At 0, data.byteAt 2, data.byteAt 3, data.u32At 4⟩

/-- The bytes of a header. -/
def toBytes (h : ManifestHeader) : Bytes :=
  Bytes.ofUInt16 h.version ++ ([h.cipherId, h.selector] ++ Bytes.ofUInt32 h.bodySize)

end ManifestHeader

/-- A decrypted manifest. -/
structure Manifest where
  name : String
  header : ManifestHeader
  provider : Provider
  containers : List String
deriving DecidableEq, Repr

namespace Manifest

-- ================================================================== body

/-- The containers that a body names: the lines with ".pkg" in them, but
for the manifest itself. -/
def containersOf (name : String) (body : List Char) : List String :=
  ((Text.crlfLines [] body).filter (Text.contains ".pkg".toList)).map String.ofList
    |>.filter (· != name)

/-- Whose manifest it is. One library is named in the manifests of one
publisher only; otherwise the file name of the manifest tells. -/
def providerOf (name : String) (body : List Char) : Provider :=
  if Text.contains "sedata.dll".toList body then .tiancity
  else (Provider.ofManifestName? name).getD .nexon

-- =============================================================== reading

/-- Reads a manifest of this name. -/
def parse (name : String) (data : Bytes) : Except Error Manifest := do
  let header ← ManifestHeader.parse data
  if header.version ≠ ManifestHeader.knownVersion then
    .error (.unknownVersion header.version)
  else
    let cipher ← Body.cipherOf header.cipherId
    let body : Bytes := data.drop ManifestHeader.size
    if body.length < header.bodySize.toNat then
      .error (.shortData header.bodySize.toNat body.length)
    else
      let plain ← Body.decrypt name cipher header.selector (body.take header.bodySize.toNat)
      let text := (Text.ofBytes plain.beforeZero).toList
      return ⟨name, header, providerOf name text, containersOf name text⟩

/-- Reads the manifest at a path. -/
def read (files : FileSystem) (path : PathName) : Except Error Manifest := do
  match path.fileName? with
  | none => .error (.unnamedManifest path.text)
  | some name =>
    let data ← (files.read path).mapError .file
    parse name data

-- =============================================================== writing

/-- A manifest with this body. -/
def encode (name : String) (cipher : Cipher) (selector : UInt8) (body : Bytes) :
    Except Error Bytes := do
  let sealed ← Body.encrypt name cipher selector body
  let header : ManifestHeader :=
    ⟨ManifestHeader.knownVersion, cipher.id, selector, UInt32.ofNat sealed.length⟩
  return header.toBytes ++ sealed

/-- The body that names files. -/
def bodyOf (names : List String) : Bytes :=
  names.flatMap fun name => Bytes.ofString name ++ [13, 10]

/-- A manifest that names files. -/
def encodeNames (name : String) (cipher : Cipher) (selector : UInt8)
    (names : List String) : Except Error Bytes :=
  encode name cipher selector (bodyOf names)

end Manifest
end GameArchive.Package
