/-
What a transcoded map owes to the way its source is stored.

A map file says of each lump where it lies, and the lump may lie there as
it is or as an LZMA frame. `Stores` leaves all of that open: it fixes the
64 decoded lumps and the revision, and nothing about their places, their
order, what lies between them, or which of them are frames. Decoding finds
exactly those lumps, and whatever comes after decoding sees nothing else of
the file, not even the places that the game lump has to be moved from: they
are counted in decoded bytes.

Main statement: `transcode_transparent`.
-/
import GameArchive.Map.Transcoding
import GameArchive.Proofs.Lzma.Frame
import GameArchive.Proofs.Map.Header
import GameArchive.Proofs.Reported

namespace GameArchive.Map

variable {file : Bytes} {revision : UInt32}

-- =============================================================== storage

/-- How a file holds a lump: as it is, or as the frame of its contents. The
entry of a frame may claim any length within the file. -/
inductive Stored (file : Bytes) (lump : Lump) (h : LumpHeader) : Prop where
  | plain (hversion : h.version = lump.version)
      (hinside : h.offset.toNat + h.length.toNat ≤ file.length)
      (hdata : file.slice h.offset.toNat h.length.toNat = lump.data)
  | framed (frame : Bytes) (hversion : h.version = lump.version ||| 0x10000)
      (hinside : h.offset.toNat + h.length.toNat ≤ file.length)
      (hframe : Lzma.compress? lump.data = some frame)
      (hdata : file.slice h.offset.toNat frame.length = frame)

/-- A vendor map that holds 64 lumps, each in a way of its own. -/
structure Stores (file : Bytes) (revision : UInt32)
    (lumps : Vector Lump 64) : Prop where
  long : Header.size ≤ file.length
  ident : (Header.read file).ident = Header.mapIdent
  version : (Header.read file).version = 100
  revision : (Header.read file).revision = revision
  stored : ∀ (id : Nat) (hid : id < 64),
    Stored file lumps[id] (Header.read file).lumps[id]

-- ============================================================== versions

/-- A bit is set in one of two words exactly if it is set in both taken
together. -/
theorem or_and_distrib (v w bit : UInt32) :
    (v ||| w) &&& bit = (v &&& bit) ||| (w &&& bit) :=
  UInt32.toBitVec_inj.mp BitVec.and_or_distrib_right

/-- Clearing a bit that is clear changes nothing. -/
theorem and_not_eq_self {v bit : UInt32} (hclear : v &&& bit = 0) :
    v &&& ~~~bit = v := by
  have hsplit := or_and_distrib bit (~~~bit) v
  rw [UInt32.or_not_self, UInt32.neg_one_and, UInt32.and_comm bit,
    hclear, UInt32.zero_or, UInt32.and_comm] at hsplit
  exact hsplit.symm

/-- Clearing a bit that was set undoes the setting. -/
theorem or_and_not_eq_self {v bit : UInt32} (hclear : v &&& bit = 0) :
    (v ||| bit) &&& ~~~bit = v := by
  rw [or_and_distrib, UInt32.and_not_self, UInt32.or_zero,
    and_not_eq_self hclear]

-- ============================================================== decoding

/-- A stored lump is decoded, however it is stored. -/
theorem decodeLump_stored {lump : Lump} {h : LumpHeader} (id : Nat)
    (hclear : lump.version &&& 0x10000 = 0) (hstored : Stored file lump h) :
    decodeLump file id h = .ok lump := by
  cases hstored with
  | plain hversion hinside hdata =>
      have hplain : h.isCompressed = false := by
        unfold LumpHeader.isCompressed LumpHeader.compressedBit
        rw [hversion, hclear]
        rfl
      have hformat : h.formatVersion = lump.version := by
        unfold LumpHeader.formatVersion LumpHeader.compressedBit
        rw [hversion]
        exact and_not_eq_self hclear
      unfold decodeLump
      rw [if_neg (Nat.not_lt.mpr hinside), hplain, hformat, hdata]
      rfl
  | framed frame hversion hinside hframe hdata =>
      have hmarked : h.isCompressed = true := by
        unfold LumpHeader.isCompressed LumpHeader.compressedBit
        rw [hversion, or_and_distrib, hclear]
        rfl
      have hformat : h.formatVersion = lump.version := by
        unfold LumpHeader.formatVersion LumpHeader.compressedBit
        rw [hversion]
        exact or_and_not_eq_self hclear
      -- the frame, and whatever the file has behind it
      obtain ⟨rest, hsplit⟩ :
          ∃ rest, file.drop h.offset.toNat = frame ++ rest := by
        refine ⟨(file.drop h.offset.toNat).drop frame.length, ?_⟩
        rw [← List.take_append_drop frame.length (file.drop h.offset.toNat)]
        unfold Bytes.slice at hdata
        rw [hdata, List.drop_left]
      unfold decodeLump
      rw [if_neg (Nat.not_lt.mpr hinside), if_pos hmarked, hformat, hsplit]
      dsimp only
      rw [if_pos (Lzma.isFrame_append hframe rest),
        Lzma.decompress_append hframe]
      rfl

/-- Lumps that can be decoded each by its header can be decoded in a row. -/
theorem decodeLumps_of_forall {headers : List LumpHeader} :
    ∀ {lumps : List Lump} {id : Nat}, headers.length = lumps.length →
      (∀ {i : Nat} {h : LumpHeader} {lump : Lump}, headers[i]? = some h →
        lumps[i]? = some lump → decodeLump file (id + i) h = .ok lump) →
      decodeLumps file id headers = .ok lumps := by
  induction headers with
  | nil =>
      intro lumps id hlength hdecode
      rw [List.eq_nil_of_length_eq_zero hlength.symm]
      rfl
  | cons h rest ih =>
      intro lumps id hlength hdecode
      cases lumps with
      | nil => cases hlength
      | cons lump tail =>
          have hrest : decodeLumps file (id + 1) rest = .ok tail := by
            refine ih (Nat.succ.inj hlength) ?_
            intro i h' lump' hh' hlump'
            rw [Nat.add_assoc, Nat.add_comm 1]
            exact hdecode (i := i + 1) hh' hlump'
          have hfirst : decodeLump file id h = .ok lump :=
            hdecode (i := 0) rfl rfl
          unfold decodeLumps
          rw [hfirst, hrest]
          rfl

/-- A vendor map whose lumps can be decoded, and to what. -/
structure Decodes (file : Bytes) (header : Header)
    (lumps : Vector Lump 64) : Prop where
  vendor : vendorHeader file = .ok header
  lump : ∀ (id : Nat) (hid : id < 64),
    decodeLump file id header.lumps[id] = .ok lumps[id]

/-- The lumps of such a map are decoded in a row. -/
theorem Decodes.decodeLumps_eq {header : Header} {lumps : Vector Lump 64}
    (h : Decodes file header lumps) :
    decodeLumps file 0 header.lumps.toList = .ok lumps.toList := by
  refine decodeLumps_of_forall ?_ ?_
  · rw [Vector.length_toList, Vector.length_toList]
  · intro id entry lump hentry hlump
    rw [Vector.getElem?_toList] at hentry hlump
    obtain ⟨hid, rfl⟩ := Vector.getElem?_eq_some_iff.mp hentry
    obtain ⟨-, rfl⟩ := Vector.getElem?_eq_some_iff.mp hlump
    rw [Nat.zero_add]
    exact h.lump id hid

theorem Decodes.ne_nil {header : Header} {lumps : Vector Lump 64}
    (h : Decodes file header lumps) : file ≠ [] := by
  rintro rfl
  cases h.vendor

/-- A map has one header, and is decoded to one list of lumps. -/
theorem Decodes.unique {header header' : Header}
    {lumps lumps' : Vector Lump 64} (h : Decodes file header lumps)
    (h' : Decodes file header' lumps') : header = header' ∧ lumps = lumps' := by
  have hheader := Except.ok.inj (h.vendor.symm.trans h'.vendor)
  subst hheader
  refine ⟨rfl, Vector.ext fun id hid => ?_⟩
  exact Except.ok.inj ((h.lump id hid).symm.trans (h'.lump id hid))

/-- A map that stores lumps is found to be a vendor map. -/
theorem Stores.isVendorMap_eq {lumps : Vector Lump 64}
    (h : Stores file revision lumps) : isVendorMap file = true := by
  have hlong := h.long
  have hident : file.u32At 0 = Header.mapIdent := h.ident
  have hversion : file.u32At 4 = Header.vendorVersion := h.version
  unfold isVendorMap
  unfold Header.size at hlong
  rw [hident, hversion, decide_eq_true (show 8 ≤ file.length by omega)]
  rfl

theorem Stores.vendorHeader_eq {lumps : Vector Lump 64}
    (h : Stores file revision lumps) :
    vendorHeader file = .ok (Header.read file) := by
  unfold vendorHeader Header.parse Header.parse?
  rw [if_pos h.isVendorMap_eq, if_neg (Nat.not_lt.mpr h.long)]

/-- If the versions leave the bit of frames clear, its lumps are decoded to what
it stores. -/
theorem Stores.decodes {lumps : Vector Lump 64}
    (hclear : ∀ (id : Nat) (hid : id < 64),
      lumps[id].version &&& 0x10000 = 0)
    (h : Stores file revision lumps) :
    Decodes file (Header.read file) lumps where
  vendor := h.vendorHeader_eq
  lump id hid := decodeLump_stored _ (hclear id hid) (h.stored id hid)

-- ========================================================== transcoding

/-- Nothing but the revision and the decoded lumps of a map counts. -/
theorem Decodes.transcode_eq {header : Header} {lumps : Vector Lump 64}
    (h : Decodes file header lumps) (fix : Bool) :
    transcode fix file = build fix header.revision lumps.toList := by
  have hdata : ¬ file.isEmpty = true := by
    rw [List.isEmpty_iff]
    exact h.ne_nil
  unfold transcode
  rw [if_neg hdata, h.vendor, Reported.ofExcept_ok, pure_bind,
    h.decodeLumps_eq, Reported.ofExcept_ok, pure_bind]

/-- A map file is transcoded as the lumps it stores. -/
theorem transcode_stored {lumps : Vector Lump 64} (fix : Bool)
    (hclear : ∀ (id : Nat) (hid : id < 64),
      lumps[id].version &&& 0x10000 = 0)
    (h : Stores file revision lumps) :
    transcode fix file = build fix revision lumps.toList := by
  rw [(h.decodes hclear).transcode_eq fix, h.revision]

/-- Two map files that store the same lumps, each in its own way, are
transcoded alike: to the same bytes or the same error, with the same
warnings. -/
theorem transcode_transparent {a b : Bytes} {lumps : Vector Lump 64}
    (hclear : ∀ (id : Nat) (hid : id < 64),
      lumps[id].version &&& 0x10000 = 0)
    (ha : Stores a revision lumps) (hb : Stores b revision lumps)
    (fix : Bool) : transcode fix a = transcode fix b := by
  rw [transcode_stored fix hclear ha, transcode_stored fix hclear hb]

-- ======================================================== a lone lump

/-- The header of a map that has nothing in it but one lump. -/
def loneHeader (id : Nat) (entry : LumpHeader) : Header where
  ident := Header.mapIdent
  version := Header.vendorVersion
  lumps := Vector.ofFn fun i =>
    if i.val = id then entry else ⟨0, 0, 0, 0⟩
  revision := 7

theorem revision_loneHeader (id : Nat) (entry : LumpHeader) :
    (loneHeader id entry).revision = 7 := rfl

/-- Such a map, with all that follows its header. -/
def loneMap (id : Nat) (entry : LumpHeader) (body : Bytes) : Bytes :=
  (loneHeader id entry).toBytes ++ body

theorem length_loneMap (id : Nat) (entry : LumpHeader) (body : Bytes) :
    (loneMap id entry body).length = 1036 + body.length := by
  unfold loneMap
  rw [List.length_append, Header.length_toBytes]
  rfl

theorem loneMap_ne_nil (id : Nat) (entry : LumpHeader) (body : Bytes) :
    loneMap id entry body ≠ [] := by
  rw [← List.length_pos_iff, length_loneMap]
  omega

/-- A place behind the header is a place in what follows it. -/
theorem slice_loneMap (id : Nat) (entry : LumpHeader) (body : Bytes)
    (k n : Nat) : (loneMap id entry body).slice (1036 + k) n = body.slice k n :=
  Bytes.slice_behind (Header.length_toBytes _) body k n

/-- The lumps of such a map. -/
def loneLumps (id : Nat) (lump : Lump) : Vector Lump 64 :=
  Vector.ofFn fun i => if i.val = id then lump else ⟨0, []⟩

theorem getElem_loneLumps {id : Nat} (hid : id < 64) (lump : Lump) :
    (loneLumps id lump)[id] = lump := by
  unfold loneLumps
  rw [Vector.getElem_ofFn, if_pos rfl]

/-- A map with one lump stores its lumps if it stores this one. -/
theorem stores_lone {id : Nat} {entry : LumpHeader} {body : Bytes}
    {lump : Lump} (h : Stored (loneMap id entry body) lump entry) :
    Stores (loneMap id entry body) 7 (loneLumps id lump) := by
  have hread : Header.read (loneMap id entry body) = loneHeader id entry :=
    (loneHeader id entry).read_toBytes body
  constructor
  case long =>
      rw [length_loneMap]
      exact Nat.le_add_right _ _
  case ident => rw [hread]; rfl
  case version => rw [hread]; rfl
  case revision => rw [hread]; rfl
  case stored =>
      intro i hi
      rw [hread]
      unfold loneLumps loneHeader
      simp only [Vector.getElem_ofFn]
      by_cases hlone : i = id
      · rw [if_pos hlone, if_pos hlone]
        exact h
      · rw [if_neg hlone, if_neg hlone]
        exact .plain rfl (Nat.zero_le _) rfl

/-- A map with one lump can be decoded if the version of the lump leaves the bit
of frames clear. -/
theorem decodes_lone {id : Nat} {entry : LumpHeader} {body : Bytes}
    {lump : Lump} (hclear : lump.version &&& 0x10000 = 0)
    (h : Stored (loneMap id entry body) lump entry) :
    Decodes (loneMap id entry body) (loneHeader id entry)
      (loneLumps id lump) := by
  have hdecodes := (stores_lone h).decodes fun i hi => by
    unfold loneLumps
    rw [Vector.getElem_ofFn]
    split
    · exact hclear
    · exact (by decide : (0 : UInt32) &&& 0x10000 = 0)
  have hread : Header.read (loneMap id entry body) = loneHeader id entry :=
    (loneHeader id entry).read_toBytes body
  rwa [hread] at hdecodes

/-- Two leaf faces, the second of which is out of range. -/
def sampleFaces : Lump := ⟨0, Bytes.ofUInt32 10 ++ Bytes.ofUInt32 70000⟩

/-- A map of nothing but these leaf faces, right behind its header. -/
def facesMap : Bytes := loneMap 16 ⟨1036, 8, 0, 0⟩ sampleFaces.data

/-- One that has a frame of them between other bytes, and counts one byte of
it. -/
def framedFacesMap (frame : Bytes) : Bytes :=
  loneMap 16 ⟨1038, 1, 0x10000, 0⟩ ([1, 2] ++ frame ++ [3])

theorem stores_facesMap : Stores facesMap 7 (loneLumps 16 sampleFaces) := by
  refine stores_lone (.plain rfl ?_ (slice_loneMap _ _ _ 0 8))
  rw [length_loneMap]
  decide

/-- The same leaf faces are stored as a frame. -/
theorem stores_framedFacesMap {frame : Bytes}
    (hframe : Lzma.compress? sampleFaces.data = some frame) :
    Stores (framedFacesMap frame) 7 (loneLumps 16 sampleFaces) := by
  refine stores_lone (.framed frame rfl ?_ hframe ?_)
  · rw [length_loneMap, List.length_append, List.length_append]
    show 1038 + 1 ≤ 1036 + (2 + frame.length + 1)
    omega
  · show Bytes.slice _ (1036 + 2) _ = _
    rw [slice_loneMap, List.append_assoc]
    exact (Bytes.slice_behind rfl _ 0 _).trans (Bytes.slice_head rfl _)

/-- The second leaf face loses its high bits, and both become half as
long. -/
theorem transcode_facesMap :
    ∃ out, (transcode true facesMap).outcome = .ok out
      ∧ out.length = 1040 := by
  refine Reported.exists_ok_of_map ?_
  rw [transcode_stored true (by decide) stores_facesMap]
  decide +kernel

/-- A map whose leaf faces follow its header, and one that has their frame
between other bytes and counts one byte of it. -/
theorem transcode_transparent_framed :
    ∃ frame, Lzma.compress? sampleFaces.data = some frame
      ∧ Stores facesMap 7 (loneLumps 16 sampleFaces)
      ∧ Stores (framedFacesMap frame) 7 (loneLumps 16 sampleFaces)
      ∧ transcode true facesMap = transcode true (framedFacesMap frame) := by
  obtain ⟨frame, hframe⟩ :=
    Lzma.exists_compress? sampleFaces.data (by decide)
  have hframed := stores_framedFacesMap hframe
  exact ⟨frame, hframe, stores_facesMap, hframed,
    transcode_transparent (by decide) stores_facesMap hframed true⟩

end GameArchive.Map
