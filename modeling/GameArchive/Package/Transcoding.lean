/-
Undoing the encodings of a file.

A file can be wrapped, be a compressed texture, and be a vendor map, one
inside the other and in this order. Each layer is found by the bytes that
the layer before has left, and each can be left alone.
-/
import GameArchive.Map.Transcoding
import GameArchive.Package.Container

namespace GameArchive.Package

/-- What is done to files. -/
structure Options where
  /-- Unwrap wrapped files. -/
  unwrap : Bool := true
  /-- Decompress textures and maps. -/
  decompress : Bool := true
  /-- Narrow the records of maps. -/
  narrowMaps : Bool := true
  /-- Take the marker from the names of unwrapped files. -/
  rename : Bool := true
  /-- Put an invisible material in the place of the shadow block. -/
  replaceShadowBlock : Bool := false
  /-- End a job with its first failure. -/
  strict : Bool := false
deriving DecidableEq, Repr

/-- A file by its path and its contents. -/
structure NamedFile where
  path : String
  data : Bytes
deriving DecidableEq, Repr

namespace NamedFile

-- ============================================================ shadow block

/-- The material of the shadow block. -/
def shadowBlockName : String := "toolsshadowblock.vmt"

/-- A material that is not seen. -/
def invisibleMaterial : Bytes :=
  Bytes.ofString ("\"LightmappedGeneric\"\r\n\x7b\r\n\t\"$translucent\"\t\"1\"\r\n"
    ++ "\t\"$alpha\"\t\"0\"\r\n\x7d\r\n")

/-- Whether a file is the material of the shadow block. -/
def isShadowBlock (f : NamedFile) : Bool :=
  Text.sameIgnoringCase (Text.fileName f.path) shadowBlockName

-- ================================================================== layers

/-- Takes the wrapper off, if there is one. -/
def unwrap (options : Options) (f : NamedFile) : Except Error NamedFile := do
  if options.unwrap && Wrapper.isWrapped f.data then
    let wrapper ← Wrapper.parse (Text.fileName f.path) f.data
    let data ← wrapper.decrypt
    return ⟨if options.rename then Wrapper.unmarkedPath f.path else f.path, data⟩
  else return f

/-- Decompresses a texture, if it is one. -/
def expandTexture (options : Options) (f : NamedFile) : Except Error NamedFile := do
  if options.decompress && Texture.isTexture f.data then
    let data ← (Texture.decompress f.data).mapError .texture
    return ⟨f.path, data⟩
  else return f

/-- Transcodes a map, if it is one. -/
def transcodeMap (options : Options) (f : NamedFile) : Step NamedFile := do
  if options.decompress && Map.isVendorMap f.data then
    let data ← (Map.transcode options.narrowMaps f.data).lift .map .map
    return ⟨f.path, data⟩
  else return f

/-- Undoes all encodings of a file. -/
def transcode (options : Options) (f : NamedFile) : Step NamedFile := do
  if options.replaceShadowBlock && f.isShadowBlock then return ⟨f.path, invisibleMaterial⟩
  else
    let plain ← Reported.ofExcept (f.unwrap options)
    let expanded ← Reported.ofExcept (plain.expandTexture options)
    expanded.transcodeMap options

-- ============================================================= loose files

/-- The last component of a path, or the error that there is none. -/
def nameIn (path : PathName) (otherwise : Error) : Except Error String :=
  match path.fileName? with
  | some name => .ok name
  | none => .error otherwise

/-- Where the result goes: if the path of the input was changed, the name
of the result is changed too. -/
def resultPath (inputName outputName : String) (output : PathName) (result : NamedFile) :
    PathName :=
  if result.path ≠ inputName then output.withFileName (Wrapper.unmarkedPath outputName)
  else output

/-- Converts a file into another; the result is the path of that. -/
def convert (options : Options) (files : FileSystem) (input output : PathName) :
    Except Error PathName × FileSystem :=
  let result : Except Error (PathName × Bytes) := do
    let inputName ← nameIn input .unnamedInput
    let outputName ← nameIn output .unnamedOutput
    let data ← (files.read input).mapError .file
    let result ← (NamedFile.transcode options ⟨inputName, data⟩).outcome
    return (resultPath inputName outputName output result, result.data)
  match result with
  | .error e => (.error e, files)
  | .ok (target, data) =>
    match files.save target data with
    | (.error fault, files) => (.error (.file fault), files)
    | (.ok _, files) => (.ok target, files)

end NamedFile
end GameArchive.Package
