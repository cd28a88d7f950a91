/-
Maps that were transcoded.

A file is looked at three times, for a wrapper, for a texture and for a
vendor map, and what the last look leaves is not looked at again. If that
is a map, it would not matter: whatever its lumps are, its first bytes are
those of a standard header. The letters are not those of a texture, the
version is not the vendor's, and the bytes that tell a wrapper belong to
the place of the first lump, which is right behind the header.

Main statement: `transcode_final`.
-/
import GameArchive.Proofs.Map.Layout
import GameArchive.Proofs.Package.Overlay

namespace GameArchive

-- =============================================================== the bytes

namespace Map

/-- However it is treated, a map is laid out behind a standard header. -/
theorem transcode_laidOut {fix : Bool} {data out : Bytes} (hdata : data ≠ [])
    (hout : (transcode fix data).outcome = .ok out) :
    ∃ (header : Header) (contents : Vector Bytes 64),
      LaidOut out header contents := by
  obtain ⟨source, lumps, treated, -, hlumps, htreated, rfl⟩ :=
    transcode_ok hdata hout
  have hdecoded := (decodeLumps_ok hlumps).1
  rw [Vector.length_toList] at hdecoded
  have hcount := (treated_lumps htreated).1
  exact ⟨_, _, assemble_laidOut source.revision (hcount.trans hdecoded)⟩

variable {out : Bytes} {header : Header} {contents : Vector Bytes 64}

namespace LaidOut

theorem header_eq (h : LaidOut out header contents) :
    1036 ≤ out.length ∧ header = Header.read out := by
  have hparses := h.parses
  unfold Header.parse? Header.size at hparses
  split at hparses
  · cases hparses
  · exact ⟨by omega, (Option.some.inj hparses).symm⟩

/-- The version of a map that was laid out is the standard one, so it is no
vendor map. -/
theorem not_isVendorMap (h : LaidOut out header contents) :
    isVendorMap out = false := by
  obtain ⟨-, hheader⟩ := h.header_eq
  have hversion : out.u32At 4 = 20 :=
    (congrArg Header.version hheader).symm.trans h.version
  have hother : decide ((20 : UInt32) = Header.vendorVersion) = false := rfl
  unfold isVendorMap
  rw [hversion, hother, Bool.and_false]

/-- The first lump lies right behind the header. -/
theorem read_first (h : LaidOut out header contents) :
    (LumpHeader.read out 8).offset = 1036 := by
  obtain ⟨hoffset, -, -⟩ := h.placed 0 (by decide)
  have hread := Package.NamedFile.read_lump (by decide : 0 < 64) header
    contents.toList.flatten
  rw [← h.bytes] at hread
  exact (congrArg LumpHeader.offset hread).trans hoffset

end LaidOut
end Map

namespace Package

/-- Data in which no layer finds anything to undo. -/
structure Final (data : Bytes) : Prop where
  notWrapped : Wrapper.isWrapped data = false
  notTexture : Texture.isTexture data = false
  notMap : Map.isVendorMap data = false

/-- A map that was laid out is not wrapped: its first lump begins right behind
the header, far before a wrapper would have it. -/
theorem not_isWrapped_of_laidOut {out : Bytes} {header : Map.Header}
    {contents : Vector Bytes 64} (h : Map.LaidOut out header contents) :
    Wrapper.isWrapped out = false := by
  rw [Bool.eq_false_iff, Ne, isWrapped_iff_overlaysWrapper]
  intro hoverlay
  -- a wrapper would put the lump behind the first 0x20000 bytes
  have hversion := hoverlay.2.1
  rw [h.read_first] at hversion
  exact absurd hversion (by decide)

/-- There is nothing left to be done to a map that was laid out. -/
theorem final_of_laidOut {out : Bytes} {header : Map.Header}
    {contents : Vector Bytes 64} (h : Map.LaidOut out header contents) :
    Final out := by
  obtain ⟨hlength, hheader⟩ := h.header_eq
  have hident : out.u32At 0 = Map.Header.mapIdent :=
    (congrArg Map.Header.ident hheader).symm.trans h.ident
  exact ⟨not_isWrapped_of_laidOut h,
    not_isTexture_of_mapIdent (by omega) hident, h.not_isVendorMap⟩

-- ============================================================== the layers

namespace NamedFile

/-- What the layers above leave of a file is a vendor map, and maps are
transcoded. -/
def ReachesMap (options : Options) (f : NamedFile) : Prop :=
  ∃ plain expanded, f.unwrap options = .ok plain
    ∧ plain.expandTexture options = .ok expanded
    ∧ options.decompress = true ∧ Map.isVendorMap expanded.data = true

/-- Where there is nothing to undo, nothing is done. -/
theorem transcode_of_final {options : Options} {f : NamedFile}
    (hfinal : Final f.data) (hshadow : options.replaceShadowBlock = false) :
    f.transcode options = ⟨[], .ok f⟩ := by
  obtain ⟨path, data⟩ := f
  have hunwrapped : unwrap options ⟨path, data⟩ = .ok ⟨path, data⟩ := by
    unfold unwrap
    dsimp only
    rw [hfinal.notWrapped, Bool.and_false]
    rfl
  have hmap : transcodeMap options ⟨path, data⟩ = pure ⟨path, data⟩ := by
    unfold transcodeMap
    dsimp only
    rw [hfinal.notMap, Bool.and_false]
    rfl
  rw [transcode_eq options _ (by rw [hshadow, Bool.false_and]), hunwrapped,
    Reported.ofExcept_ok, pure_bind, transcodePlain,
    expandTexture_of_not_isTexture hfinal.notTexture, Reported.ofExcept_ok,
    pure_bind, hmap]
  rfl

/-- What comes of a map is laid out as one. -/
theorem transcodeMap_laidOut {options : Options} {f t : NamedFile}
    (hdecompress : options.decompress = true)
    (hmap : Map.isVendorMap f.data = true)
    (h : (f.transcodeMap options).outcome = .ok t) :
    ∃ (header : Map.Header) (contents : Vector Bytes 64),
      Map.LaidOut t.data header contents := by
  have hdata : f.data ≠ [] := by
    intro hnil
    rw [hnil] at hmap
    cases hmap
  unfold transcodeMap at h
  rw [hdecompress, hmap, Bool.and_self, if_pos rfl] at h
  obtain ⟨out, hout, h⟩ := Reported.bind_ok h
  cases h
  change (Map.transcode _ f.data).outcome.mapError _ = .ok out at hout
  cases hrun : (Map.transcode options.narrowMaps f.data).outcome with
  | error cause =>
      rw [hrun] at hout
      cases hout
  | ok result =>
      rw [hrun] at hout
      cases hout
      exact Map.transcode_laidOut hdata hrun

/-- A vendor map that is to be decompressed is transcoded as one. -/
theorem outcome_transcodePlain {options : Options} {path : String}
    {data : Bytes} (hdecompress : options.decompress = true)
    (hmap : Map.isVendorMap data = true) :
    (transcodePlain options ⟨path, data⟩).outcome
      = ((Map.transcode options.narrowMaps data).outcome.mapError .map).map
          (NamedFile.mk path) := by
  rw [transcodePlain_of_isVendorMap hdecompress hmap, Reported.map_eq]
  rfl

/-- A map that was transcoded is final: it looks like nothing that there is
anything to undo of, and going on with it changes neither path nor data. -/
theorem transcode_final {options : Options} {f t : NamedFile}
    (hshadow : options.replaceShadowBlock = false)
    (hreaches : f.ReachesMap options)
    (h : (f.transcode options).outcome = .ok t) :
    Wrapper.isWrapped t.data = false
      ∧ Texture.isTexture t.data = false
      ∧ Map.isVendorMap t.data = false
      ∧ t.transcode options = ⟨[], .ok t⟩ := by
  obtain ⟨plain, expanded, hplain, hexpanded, hdecompress, hmap⟩ := hreaches
  rw [transcode_eq options f (by rw [hshadow, Bool.false_and]), hplain,
    Reported.ofExcept_ok, pure_bind, transcodePlain, hexpanded,
    Reported.ofExcept_ok, pure_bind] at h
  obtain ⟨header, contents, hlaid⟩ := transcodeMap_laidOut hdecompress hmap h
  have hfinal := final_of_laidOut hlaid
  exact ⟨hfinal.notWrapped, hfinal.notTexture, hfinal.notMap,
    transcode_of_final hfinal hshadow⟩

/-- A wrapped map of two leaf faces: it loses its wrapper, the marker in its
name and half of its faces, and then stays as it is. -/
theorem transcode_final_wrapped :
    ∃ w out, Wrapper.encode (Text.fileName "maps/a.ebsp") .blowfish 5
          Map.facesMap = .ok w
      ∧ ({} : Options).replaceShadowBlock = false
      ∧ ReachesMap {} ⟨"maps/a.ebsp", w⟩
      ∧ (transcode {} ⟨"maps/a.ebsp", w⟩).outcome = .ok ⟨"maps/a.bsp", out⟩
      ∧ out.length = 1040
      ∧ Wrapper.isWrapped out = false ∧ Texture.isTexture out = false
      ∧ Map.isVendorMap out = false
      ∧ transcode {} ⟨"maps/a.bsp", out⟩
        = ⟨[], .ok ⟨"maps/a.bsp", out⟩⟩ := by
  have hmap := Map.stores_facesMap.isVendorMap_eq
  have hlength : Map.facesMap.length < 0x100000000 := by
    unfold Map.facesMap
    rw [Map.length_loneMap]
    decide
  obtain ⟨w, hw⟩ := Wrapper.exists_encode (by decide : (5 : UInt8).toNat < 8)
    (Text.fileName "maps/a.ebsp") .blowfish Map.facesMap
  have hplain : unwrap {} ⟨"maps/a.ebsp", w⟩
      = .ok ⟨"maps/a.bsp", Map.facesMap⟩ :=
    unwrap_wrapped rfl hlength hw
  have hexpanded : expandTexture {} ⟨"maps/a.bsp", Map.facesMap⟩
      = .ok ⟨"maps/a.bsp", Map.facesMap⟩ :=
    expandTexture_of_not_isTexture (not_isTexture_of_isVendorMap hmap)
  have hreaches : ReachesMap {} ⟨"maps/a.ebsp", w⟩ :=
    ⟨_, _, hplain, hexpanded, rfl, hmap⟩
  obtain ⟨out, hout, hlength⟩ := Map.transcode_facesMap
  have hrun : (transcode {} ⟨"maps/a.ebsp", w⟩).outcome
      = ((Map.transcode true Map.facesMap).outcome.mapError .map).map
          (NamedFile.mk "maps/a.bsp") := by
    rw [transcode_eq _ _ rfl, hplain, Reported.ofExcept_ok, pure_bind]
    exact outcome_transcodePlain rfl hmap
  rw [hout] at hrun
  exact ⟨w, out, hw, rfl, hreaches, hrun, hlength,
    transcode_final rfl hreaches hrun⟩

end NamedFile
end Package
end GameArchive
