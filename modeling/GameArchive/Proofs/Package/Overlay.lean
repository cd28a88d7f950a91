/-
Maps that look wrapped.

A wrapped file has no letters of its own to begin with: all that tells it
are a version, the number of a cipher and a size, at the bytes 10 to 17. In
a map these bytes belong to the directory entry of the first lump, and
every value of them is allowed there. So the two headers are laid over
each other field by field: the version is the upper half of the lump's
offset, the number of the cipher the lowest byte of its length, and the
size joins the upper half of the length and the lower half of the version.

A map that does not fall under this is taken for a map: it does not look
wrapped, and it cannot be a texture, whose letters are others. One that
does is unwrapped before it is looked at as a map.

Main statement: `transcode_vendorMap`.
-/
import GameArchive.Proofs.Map.Storage
import GameArchive.Proofs.Package.Layers
import GameArchive.Proofs.Package.Unwrapping

namespace GameArchive

namespace Bytes

-- ========================================================== byte by byte

theorem toNat_slice_succ (data : Bytes) (offset length : Nat) :
    toNat (data.slice offset (length + 1))
      = (data.byteAt offset).toNat
        + 256 * toNat (data.slice (offset + 1) length) := by
  unfold slice byteAt
  rw [← List.drop_drop, List.getD_eq_getElem?_getD,
    ← Nat.add_zero offset, ← List.getElem?_drop]
  cases data.drop offset with
  | nil => simp [toNat]
  | cons b rest => simp [toNat]

theorem toNat_slice_zero (data : Bytes) (offset : Nat) :
    toNat (data.slice offset 0) = 0 := by
  simp [slice, toNat]

/-- A number in two bytes is the second one above the first. -/
theorem toNat_u16At (data : Bytes) (offset : Nat) :
    (data.u16At offset).toNat
      = (data.byteAt offset).toNat
        + 256 * (data.byteAt (offset + 1)).toNat := by
  have hlow := (data.byteAt offset).toNat_lt
  have hhigh := (data.byteAt (offset + 1)).toNat_lt
  unfold u16At
  simp only [toNat_slice_succ, toNat_slice_zero]
  rw [UInt16.toNat_ofNat_of_lt' (by show _ < 0x10000; omega)]
  omega

/-- A word is its lower half and its upper half. -/
theorem toNat_u32At (data : Bytes) (offset : Nat) :
    (data.u32At offset).toNat
      = (data.u16At offset).toNat
        + 0x10000 * (data.u16At (offset + 2)).toNat := by
  have h0 := (data.byteAt offset).toNat_lt
  have h1 := (data.byteAt (offset + 1)).toNat_lt
  have h2 := (data.byteAt (offset + 2)).toNat_lt
  have h3 := (data.byteAt (offset + 3)).toNat_lt
  rw [toNat_u16At, toNat_u16At]
  unfold u32At
  simp only [toNat_slice_succ, toNat_slice_zero, Nat.add_assoc,
    Nat.reduceAdd]
  rw [UInt32.toNat_ofNat_of_lt' (by show _ < 0x100000000; omega)]
  omega

end Bytes

/-- There are ciphers for the ids from one to four. -/
theorem Cipher.isSome_ofId?_iff (id : UInt8) :
    (Cipher.ofId? id).isSome = true ↔ 1 ≤ id.toNat ∧ id.toNat ≤ 4 := by
  unfold Cipher.ofId?
  split <;> simp_all
  omega

namespace Package

-- ==================================================== the overlaid header

/-- Whether the entry of the first lump reads as the end of a wrapper's
header, with a size that the data allow. -/
def OverlaysWrapper (data : Bytes) : Prop :=
  let lump := Map.LumpHeader.read data 8
  18 ≤ data.length
    ∧ lump.offset.toNat / 0x10000 = 2
    ∧ 1 ≤ lump.length.toNat % 0x100 ∧ lump.length.toNat % 0x100 ≤ 4
    ∧ lump.length.toNat / 0x10000 + 0x10000 * (lump.version.toNat % 0x10000)
      ≤ data.length - 18

/-- A wrapped file is told by three fields of its header, and by its size. -/
theorem Wrapper.isWrapped_iff (data : Bytes) :
    Wrapper.isWrapped data = true
      ↔ 18 ≤ data.length ∧ (data.u16At 10).toNat = 2
        ∧ (1 ≤ (data.byteAt 12).toNat ∧ (data.byteAt 12).toNat ≤ 4)
        ∧ (data.u32At 14).toNat ≤ data.length - 18 := by
  have hversion : data.u16At 10 = 2 ↔ (data.u16At 10).toNat = 2 :=
    UInt16.toNat_inj.symm
  unfold Wrapper.isWrapped WrapperHeader.parse WrapperHeader.size
  by_cases hshort : data.length < 18
  · rw [if_pos hshort]
    simp
    omega
  · rw [if_neg hshort]
    simp only [WrapperHeader.isKnown, WrapperHeader.knownVersion,
      Bool.and_eq_true, decide_eq_true_eq, Cipher.isSome_ofId?_iff, hversion]
    constructor
    · rintro ⟨⟨h2, hcipher⟩, hsize⟩
      exact ⟨by omega, h2, hcipher, hsize⟩
    · rintro ⟨-, h2, hcipher, hsize⟩
      exact ⟨⟨h2, hcipher⟩, hsize⟩

/-- The size of a wrapper lies across two fields of the entry. -/
theorem toNat_overlaid_size (data : Bytes) :
    (data.u32At 14).toNat
      = (Map.LumpHeader.read data 8).length.toNat / 0x10000
        + 0x10000
          * ((Map.LumpHeader.read data 8).version.toNat % 0x10000) := by
  have hlength := Bytes.toNat_u32At data 12
  have hversion := Bytes.toNat_u32At data 16
  have hsize := Bytes.toNat_u32At data 14
  have h12 := (data.u16At 12).toNat_lt
  have h16 := (data.u16At 16).toNat_lt
  unfold Map.LumpHeader.read
  simp only [Nat.reduceAdd] at hlength hversion hsize ⊢
  omega

/-- Data look wrapped exactly if the entry of the first lump does. -/
theorem isWrapped_iff_overlaysWrapper (data : Bytes) :
    Wrapper.isWrapped data = true ↔ OverlaysWrapper data := by
  have hoffset := Bytes.toNat_u32At data 8
  have hlength := Bytes.toNat_u32At data 12
  have hcipher := Bytes.toNat_u16At data 12
  have h8 := (data.u16At 8).toNat_lt
  have h12 := (data.byteAt 12).toNat_lt
  have h13 := (data.byteAt 13).toNat_lt
  rw [Wrapper.isWrapped_iff, toNat_overlaid_size]
  unfold OverlaysWrapper Map.LumpHeader.read
  simp only [Nat.reduceAdd] at hoffset hlength hcipher ⊢
  omega

/-- A map of any version begins with other letters than a texture. -/
theorem not_isTexture_of_mapIdent {data : Bytes} (hlength : 4 ≤ data.length)
    (hident : data.u32At 0 = Map.Header.mapIdent) :
    Texture.isTexture data = false := by
  have hletters : data.take 4 = [0x56, 0x42, 0x53, 0x50] := by
    rw [← Bytes.ofUInt32_u32At hlength, hident]
    rfl
  unfold Texture.isTexture Bytes.startsWith
  cases data with
  | nil => rfl
  | cons b rest =>
      have hb : b = 0x56 := (List.cons.inj hletters).1
      subst hb
      rfl

/-- A vendor map does not begin as a texture does. -/
theorem not_isTexture_of_isVendorMap {data : Bytes}
    (hmap : Map.isVendorMap data = true) :
    Texture.isTexture data = false := by
  unfold Map.isVendorMap at hmap
  simp only [Bool.and_eq_true, decide_eq_true_eq] at hmap
  obtain ⟨⟨hlength, hident⟩, -⟩ := hmap
  exact not_isTexture_of_mapIdent (by omega) hident

namespace NamedFile

variable {options : Options} {path : String} {data : Bytes}

-- ================================================== maps that look plain

/-- Where nothing reads as a wrapper, nothing is unwrapped. -/
theorem unwrap_of_not_overlaysWrapper
    (hclear : options.unwrap = true → ¬ OverlaysWrapper data) :
    unwrap options ⟨path, data⟩ = .ok ⟨path, data⟩ := by
  unfold unwrap
  rw [if_neg]
  · rfl
  · simp only [Bool.and_eq_true, isWrapped_iff_overlaysWrapper]
    rintro ⟨hunwrap, hwrapped⟩
    exact hclear hunwrap hwrapped

theorem expandTexture_of_not_isTexture
    (htexture : Texture.isTexture data = false) :
    expandTexture options ⟨path, data⟩ = .ok ⟨path, data⟩ := by
  unfold expandTexture
  dsimp only
  rw [htexture, Bool.and_false]
  rfl

/-- In the clear, a vendor map is transcoded as one. -/
theorem transcodePlain_of_isVendorMap (hdecompress : options.decompress = true)
    (hmap : Map.isVendorMap data = true) :
    transcodePlain options ⟨path, data⟩
      = NamedFile.mk path <$>
        (Map.transcode options.narrowMaps data).lift .map .map := by
  have hexpanded : expandTexture options ⟨path, data⟩
      = .ok ⟨path, data⟩ :=
    expandTexture_of_not_isTexture (not_isTexture_of_isVendorMap hmap)
  rw [transcodePlain, hexpanded, Reported.ofExcept_ok, pure_bind]
  unfold transcodeMap
  dsimp only
  rw [hdecompress, hmap, Bool.and_self, if_pos rfl]
  rfl

-- ================================================ maps that look wrapped

/-- Whatever reads as a wrapped file is decrypted as one. -/
theorem transcode_of_isWrapped
    (hshadow : (options.replaceShadowBlock
      && isShadowBlock ⟨path, data⟩) = false)
    (hunwrap : options.unwrap = true)
    (hwrapped : Wrapper.isWrapped data = true) :
    ∃ wrapper, Wrapper.parse (Text.fileName path) data = .ok wrapper
      ∧ wrapper.header.plainSize = data.u32At 14
      ∧ transcode options ⟨path, data⟩ = (do
          let plain ← Reported.ofExcept wrapper.decrypt
          transcodePlain options
            ⟨if options.rename then Wrapper.unmarkedPath path else path,
              plain⟩) := by
  obtain ⟨wrapper, hparsed⟩ :=
    (Wrapper.isWrapped_iff_exists_parse (Text.fileName path) data).mp
      hwrapped
  refine ⟨wrapper, hparsed, (Wrapper.fields_of_parse hparsed).2, ?_⟩
  rw [transcode_eq _ _ hshadow]
  unfold unwrap
  dsimp only
  rw [hunwrap, hwrapped, Bool.and_self, if_pos rfl, hparsed]
  simp only [bind, Except.bind]
  cases wrapper.decrypt with
  | ok plain => rfl
  | error cause => rfl

/-- A vendor map is transcoded as such and keeps its path, unless files are
unwrapped and the entry of its first lump reads as the end of a wrapper's
header: then its bytes are decrypted first, and only what comes of that is
looked at as a texture or a map. -/
theorem transcode_vendorMap (hdecompress : options.decompress = true)
    (hshadow : (options.replaceShadowBlock
      && isShadowBlock ⟨path, data⟩) = false)
    (hmap : Map.isVendorMap data = true) :
    ((options.unwrap = true → ¬ OverlaysWrapper data) →
      (transcode options ⟨path, data⟩).warnings
          = (Map.transcode options.narrowMaps data).warnings.map .map
        ∧ (transcode options ⟨path, data⟩).outcome
          = ((Map.transcode options.narrowMaps data).outcome.mapError
              .map).map (NamedFile.mk path))
      ∧ (options.unwrap = true → OverlaysWrapper data →
        ∃ wrapper, Wrapper.parse (Text.fileName path) data = .ok wrapper
          ∧ transcode options ⟨path, data⟩ = (do
              let plain ← Reported.ofExcept wrapper.decrypt
              transcodePlain options
                ⟨if options.rename then Wrapper.unmarkedPath path else path,
                  plain⟩)) := by
  constructor
  · intro hclear
    rw [transcode_eq _ _ hshadow, unwrap_of_not_overlaysWrapper hclear,
      Reported.ofExcept_ok, pure_bind,
      transcodePlain_of_isVendorMap hdecompress hmap, Reported.map_eq]
    exact ⟨rfl, rfl⟩
  · intro hunwrap hoverlay
    obtain ⟨wrapper, hparsed, -, htranscoded⟩ := transcode_of_isWrapped
      hshadow hunwrap ((isWrapped_iff_overlaysWrapper data).mpr hoverlay)
    exact ⟨wrapper, hparsed, htranscoded⟩

/-- The entry of a lump is read from its place in the header. -/
theorem read_lump {id : Nat} (hid : id < 64) (h : Map.Header)
    (rest : Bytes) :
    Map.LumpHeader.read (h.toBytes ++ rest) (8 + Map.LumpHeader.size * id)
      = h.lumps[id] := by
  have hread := congrArg (fun h : Map.Header => h.lumps[id])
    (h.read_toBytes rest)
  simpa [Map.Header.read] using hread

/-- A map of two leaf faces, the first lump of which is empty. -/
theorem transcode_vendorMap_faces :
    Map.isVendorMap Map.facesMap = true
      ∧ ¬ OverlaysWrapper Map.facesMap
      ∧ (transcode {} ⟨"maps/a.bsp", Map.facesMap⟩).outcome
        = ((Map.transcode true Map.facesMap).outcome.mapError .map).map
            (NamedFile.mk "maps/a.bsp") := by
  have hfirst : Map.LumpHeader.read Map.facesMap 8 = ⟨0, 0, 0, 0⟩ :=
    read_lump (by decide : 0 < 64) _ _
  have hclear : ¬ OverlaysWrapper Map.facesMap := by
    intro hoverlay
    unfold OverlaysWrapper at hoverlay
    rw [hfirst] at hoverlay
    exact absurd hoverlay.2.1 (by decide)
  have hmap := Map.stores_facesMap.isVendorMap_eq
  obtain ⟨hplain, -⟩ :=
    @transcode_vendorMap {} "maps/a.bsp" Map.facesMap rfl rfl hmap
  exact ⟨hmap, hclear, (hplain fun _ => hclear).2⟩

-- ======================================================= a lump far away

/-- A map of one byte of entities, with a gap before it. -/
def farMap : Bytes :=
  Map.loneMap 0 ⟨0x20000, 1, 0, 0⟩ (Bytes.zeros 130036 ++ [0x41])

theorem length_farMap : farMap.length = 0x20001 := by
  unfold farMap
  rw [Map.length_loneMap, List.length_append, Bytes.length_zeros]
  rfl

theorem stores_farMap :
    Map.Stores farMap 7 (Map.loneLumps 0 ⟨0, [0x41]⟩) := by
  have hslice : farMap.slice (1036 + 130036) 1 = [0x41] :=
    (Map.slice_loneMap _ _ _ _ _).trans
      (Bytes.slice_behind (Bytes.length_zeros 130036) [0x41] 0 1)
  refine Map.stores_lone (.plain rfl ?_ hslice)
  show _ ≤ farMap.length
  rw [length_farMap]
  decide

/-- What is left of a map whose first lump lies 0x20000 bytes behind its
beginning: it is a vendor map, and can be transcoded as one, but it looks
wrapped, with no contents. -/
theorem transcode_farMap :
    ({} : Options).decompress = true
      ∧ (({} : Options).replaceShadowBlock
        && isShadowBlock ⟨"maps/far.bsp", farMap⟩) = false
      ∧ Map.isVendorMap farMap = true
      ∧ (∃ out, (Map.transcode ({} : Options).narrowMaps farMap).outcome
          = .ok out ∧ out.length = 1037)
      ∧ (transcode {} ⟨"maps/far.bsp", farMap⟩).outcome
        = .ok ⟨"maps/far.bsp", []⟩ := by
  have hmap := stores_farMap.isVendorMap_eq
  have hfirst : Map.LumpHeader.read farMap 8 = ⟨0x20000, 1, 0, 0⟩ :=
    read_lump (by decide : 0 < 64) _ _
  have hwrapped : Wrapper.isWrapped farMap = true := by
    rw [isWrapped_iff_overlaysWrapper]
    unfold OverlaysWrapper
    rw [hfirst, length_farMap]
    decide
  have hsize : farMap.u32At 14 = 0 := by
    rw [← UInt32.toNat_inj, toNat_overlaid_size, hfirst]
    rfl
  refine ⟨rfl, rfl, hmap, ?_, ?_⟩
  · refine Reported.exists_ok_of_map ?_
    show (Map.transcode true farMap).outcome.toOption.map List.length = _
    rw [Map.transcode_stored true (by decide) stores_farMap]
    decide +kernel
  · obtain ⟨wrapper, -, hplain, htranscoded⟩ := @transcode_of_isWrapped {}
      "maps/far.bsp" farMap rfl rfl hwrapped
    have hdecrypted : wrapper.decrypt = .ok [] := by
      unfold Wrapper.decrypt
      rw [hplain, hsize, if_pos rfl]
      rfl
    rw [htranscoded, hdecrypted]
    rfl

end NamedFile
end Package
end GameArchive
