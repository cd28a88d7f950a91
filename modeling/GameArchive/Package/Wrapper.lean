/-
Files that an application encrypts for itself.

Such a file is wrapped inside its container: a header of eighteen bytes
says how its body is encrypted, with a key that depends on the file name.
A wrapped file is told by its header alone, and the extension of its name
carries a marker, an "e", that goes when it is decrypted.
-/
import GameArchive.Bytes.LittleEndian
import GameArchive.Package.Body
import GameArchive.Text.Parts

namespace GameArchive.Package

/-- The header of a wrapped file. -/
structure WrapperHeader where
  checksum : Bytes
  version : UInt16
  cipherId : UInt8
  selector : UInt8
  plainSize : UInt32
deriving DecidableEq, Repr

namespace WrapperHeader

/-- The length of the checksum, which nobody checks. -/
def checksumSize : Nat := 10

/-- The length of the header. -/
def size : Nat := 18

/-- The only version there is. -/
def knownVersion : UInt16 := 2

/-- Reads the header at the beginning of data. -/
def parse (data : Bytes) : Except Error WrapperHeader :=
  if data.length < size then .error (.shortData size data.length)
  else .ok ⟨data.slice 0 checksumSize, data.u16At 10, data.byteAt 12, data.byteAt 13,
    data.u32At 14⟩

/-- The bytes of a header. -/
def toBytes (h : WrapperHeader) : Bytes :=
  h.checksum ++ (Bytes.ofUInt16 h.version
    ++ ([h.cipherId, h.selector] ++ Bytes.ofUInt32 h.plainSize))

/-- Whether version and cipher are known. -/
def isKnown (h : WrapperHeader) : Bool :=
  h.version = knownVersion && (Cipher.ofId? h.cipherId).isSome

end WrapperHeader

/-- A wrapped file: its header, its cipher, and what follows the header. -/
structure Wrapper where
  name : String
  header : WrapperHeader
  cipher : Cipher
  body : Bytes
deriving DecidableEq, Repr

namespace Wrapper

-- ============================================================= detection

/-- Whether data begin with the header of a wrapped file. -/
def hasHeader (data : Bytes) : Bool :=
  match WrapperHeader.parse data with
  | .ok h => h.isKnown
  | .error _ => false

/-- Whether data are a whole wrapped file. -/
def isWrapped (data : Bytes) : Bool :=
  match WrapperHeader.parse data with
  | .ok h => h.isKnown && h.plainSize.toNat ≤ data.length - WrapperHeader.size
  | .error _ => false

-- =============================================================== reading

/-- Reads a wrapped file of this name. -/
def parse (name : String) (data : Bytes) : Except Error Wrapper := do
  let header ← WrapperHeader.parse data
  if header.version ≠ WrapperHeader.knownVersion then
    .error (.unknownVersion header.version)
  else
    let cipher ← Body.cipherOf header.cipherId
    let body : Bytes := data.drop WrapperHeader.size
    if body.length < header.plainSize.toNat then
      .error (.shortData header.plainSize.toNat body.length)
    else return ⟨name, header, cipher, body⟩

/-- How much of the body the plain text takes: whole blocks, as far as the
body goes. -/
def sealedSize (w : Wrapper) : Nat :=
  let block := w.cipher.blockSize
  min ((w.header.plainSize.toNat + (block - 1)) / block * block) w.body.length

/-- Decrypts the body. An empty one needs no key. -/
def decrypt (w : Wrapper) : Except Error Bytes := do
  if w.header.plainSize = 0 then return []
  else
    let plain ← Body.decrypt w.name w.cipher w.header.selector (w.body.take w.sealedSize)
    return plain.take w.header.plainSize.toNat

-- =============================================================== writing

/-- The body of a wrapped file. An empty one needs no key. -/
def encodeBody (name : String) (cipher : Cipher) (selector : UInt8) (plain : Bytes) :
    Except Error Bytes := do
  if plain.isEmpty then return [] else Body.encrypt name cipher selector plain

/-- Wraps a file of this name. -/
def encode (name : String) (cipher : Cipher) (selector : UInt8) (plain : Bytes) :
    Except Error Bytes := do
  let body ← encodeBody name cipher selector plain
  let header : WrapperHeader := ⟨Bytes.zeros WrapperHeader.checksumSize,
    WrapperHeader.knownVersion, cipher.id, selector, UInt32.ofNat plain.length⟩
  return header.toBytes ++ body

-- ============================================================== file names

/-- A file name in two at its last dot, which must not be the first
character. -/
def splitExtension? (name : List Char) : Option (List Char × List Char) :=
  let extension := Text.lastPart (· == '.') name
  let stem := name.take (name.length - extension.length - 1)
  if stem.isEmpty then none else some (stem, extension)

/-- A file name without the marker: its extension from behind the first
"e", or none if nothing is left. -/
def unmarkedName (name : List Char) : List Char :=
  match splitExtension? name with
  | none => name
  | some (stem, extension) =>
    match extension.dropWhile (· != 'e') with
    | [] => name
    | [_] => stem
    | _ :: rest => stem ++ '.' :: rest

/-- A path whose file name is without the marker. -/
def unmarkedPath (path : String) : String :=
  let name := Text.lastPart (· == '/') path.toList
  String.ofList (path.toList.take (path.toList.length - name.length) ++ unmarkedName name)

end Wrapper
end GameArchive.Package
