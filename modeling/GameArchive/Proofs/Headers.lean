/-
Headers of a fixed size, read and written.

Four formats begin with a header whose fields stand at fixed places: maps,
LZMA frames, manifests and wrapped files. For each, reading and writing are
two sides of one codec. A header that is written reads back, whatever
follows it; and a header that is read is written as the very bytes that it
was read from, so nothing in them is lost or moved. `ExactCodec` states both
directions for any size; each format brings its fields, and `of_read` makes
the codec of them.

The directory of a game lump is as long as its count says. What is written
as the directory of a rewritten lump is what is read from that lump.

Main statement: `headers_exact`.
-/
import GameArchive.Proofs.Lzma.Frame
import GameArchive.Proofs.Map.GameLump.Chain
import GameArchive.Proofs.Package.Naming

namespace GameArchive

open Bytes

-- ================================================================ codecs

/-- A codec for headers of `size` bytes. Data are read exactly where they are
long enough and begin as they must. -/
structure ExactCodec {α : Type} (size : Nat) (IsHeader : α → Prop)
    (Begins : Bytes → Prop) (toBytes : α → Bytes)
    (Reads : Bytes → α → Prop) : Prop where
  sized : ∀ h, IsHeader h → (toBytes h).length = size
  reads : ∀ h, IsHeader h → ∀ rest, Reads (toBytes h ++ rest) h
  readable : ∀ data, (∃ h, Reads data h) ↔ size ≤ data.length ∧ Begins data
  writes : ∀ data h, Reads data h → IsHeader h ∧ toBytes h = data.take size

/-- A codec whose reader takes the fields of data that it accepts. -/
theorem ExactCodec.of_read {α : Type} {size : Nat} {IsHeader : α → Prop}
    {Begins : Bytes → Prop} {toBytes : α → Bytes}
    {Reads : Bytes → α → Prop} (read : Bytes → α)
    (hreads : ∀ data h, Reads data h
      ↔ (size ≤ data.length ∧ Begins data) ∧ h = read data)
    (hback : ∀ h, IsHeader h → ∀ rest, Reads (toBytes h ++ rest) h)
    (hsized : ∀ h, IsHeader h → (toBytes h).length = size)
    (hwrites : ∀ data, size ≤ data.length → Begins data →
      IsHeader (read data) ∧ toBytes (read data) = data.take size) :
    ExactCodec size IsHeader Begins toBytes Reads where
  sized := hsized
  reads := hback
  readable data := by
    constructor
    · rintro ⟨h, hread⟩
      exact ((hreads data h).mp hread).1
    · intro haccepted
      exact ⟨read data, (hreads data _).mpr ⟨haccepted, rfl⟩⟩
  writes data h hread := by
    obtain ⟨⟨hlong, hbegins⟩, rfl⟩ := (hreads data h).mp hread
    exact hwrites data hlong hbegins

/-- A reader that begins by refusing short data reads what is long enough and
passes the rest of it. -/
theorem ite_short_eq_ok_iff {ε α : Type} {data : Bytes} {size : Nat} {e : ε}
    {x : Except ε α} {a : α} :
    (if data.length < size then .error e else x) = .ok a
      ↔ size ≤ data.length ∧ x = .ok a := by
  by_cases hshort : data.length < size
  · rw [if_pos hshort]
    exact ⟨nofun, fun ⟨hlong, _⟩ => absurd hlong (Nat.not_le.mpr hshort)⟩
  · rw [if_neg hshort]
    exact (and_iff_right (Nat.not_lt.mp hshort)).symm

-- ================================================================== maps

namespace Map

theorem LumpHeader.toBytes_read {data : Bytes} {offset : Nat}
    (h : offset + 16 ≤ data.length) :
    (read data offset).toBytes = data.slice offset 16 := by
  unfold toBytes read
  simp (disch := omega) only [ofUInt32_u32At_slice, slice_append_slice]

namespace Header

/-- The headers of the lumps are read from places sixteen bytes apart. -/
theorem toList_lumps_read (data : Bytes) :
    (read data).lumps.toList
      = (List.range 64).map fun k => LumpHeader.read data (8 + 16 * k) := by
  unfold read
  refine List.ext_getElem ?_ fun k hk hk' => ?_
  · rw [Vector.length_toList, List.length_map, List.length_range]
  · rw [Vector.getElem_toList, Vector.getElem_ofFn, List.getElem_map,
      List.getElem_range]
    rfl

/-- The header of a map is written as it was read. -/
theorem toBytes_read {data : Bytes} (h : 1036 ≤ data.length) :
    (read data).toBytes = data.take 1036 := by
  have hdirectory : (read data).lumps.toList.flatMap LumpHeader.toBytes
      = data.slice 8 1024 := by
    rw [toList_lumps_read, List.flatMap_map,
      ← flatMap_range_slice data 8 16 64, List.flatMap_def, List.flatMap_def]
    refine congrArg List.flatten (List.map_congr_left fun k hk => ?_)
    have hlt := List.mem_range.mp hk
    exact LumpHeader.toBytes_read (by omega)
  unfold toBytes
  rw [hdirectory]
  unfold read
  simp (disch := omega) only [ofUInt32_u32At_slice, slice_append_slice]
  rfl

/-- Any data that are long enough have the header of a map: nothing else is
checked of it. -/
theorem exactCodec :
    ExactCodec 1036 (fun _ => True) (fun _ => True) toBytes
      fun data h => parse? data = some h := by
  refine .of_read read ?_ (fun h _ => h.parse?_toBytes)
    (fun h _ => h.length_toBytes)
    fun data hlong _ => ⟨trivial, toBytes_read hlong⟩
  intro data h
  unfold parse? size
  rw [Option.ite_none_left_eq_some, Nat.not_lt, Option.some_inj, and_true,
    eq_comm]

end Header

-- ============================================================ game lumps

/-- A directory has fewer entries than a signed word can count. -/
theorem HasDirectory.length_lt {data : Bytes} {directory : List GameEntry}
    (h : HasDirectory data directory) : directory.length < 0x80000000 := by
  have hbounds := i32At_bounds data 0
  have hcounted := h.counted
  omega

/-- The entries of a source, moved to where their sections come to lie, are
the directory that a game lump begins with. -/
structure Redirected (oldBase newBase : Nat) (data out : Bytes)
    (directory written : List GameEntry) (sections : List CountedSection) :
    Prop where
  source : readDirectory data = .ok directory
  counted : (CountedSection.readChain data
      (sectionFormats (propsVersionOf directory))
      (4 + GameEntry.size * directory.length)).outcome = .ok sections
  moved : written = movedDirectory oldBase newBase directory sections
  begins : Bytes.ofNat 4 written.length ++ written.flatMap GameEntry.toBytes
    <+: out

/-- The directory that is written is the directory that is read. -/
theorem readDirectory_rewritten {oldBase newBase : Nat} {data out : Bytes}
    (hdata : data ≠ [])
    (h : (transcodeGameLump oldBase newBase data).outcome = .ok out) :
    ∃ directory written sections,
      Redirected oldBase newBase data out directory written sections
      ∧ readDirectory out = .ok written := by
  obtain ⟨directory, sections, hdirectory, hsections, -, rfl⟩ :=
    (transcodeGameLump_ok_iff oldBase newBase hdata).mp h
  have hcount : (movedDirectory oldBase newBase directory sections).length
      < 0x80000000 := by
    rw [length_movedDirectory]
    exact hdirectory.length_lt
  exact ⟨directory, _, sections,
    ⟨readDirectory_ok_iff.mpr hdirectory, hsections, rfl,
      List.prefix_append _ _⟩,
    readDirectory_ok_iff.mpr (hasDirectory_written hcount _)⟩

end Map

-- ================================================================ frames

namespace Lzma.FrameHeader

/-- The first bytes are those of a frame exactly if the first word is. -/
theorem startsWith_id_iff {data : Bytes} (h : 4 ≤ data.length) :
    data.startsWith [0x4C, 0x5A, 0x4D, 0x41] = true
      ↔ data.u32At 0 = id := by
  show data.startsWith (ofUInt32 id) = true ↔ _
  unfold startsWith
  rw [List.isPrefixOf_iff_prefix, List.prefix_iff_eq_take, length_ofUInt32,
    ofUInt32_eq_take_iff h, eq_comm]

/-- A frame header is read of all data that begin as frames do, and of no
others. -/
theorem exactCodec :
    ExactCodec 17 (fun _ => True)
      (fun data => data.startsWith [0x4C, 0x5A, 0x4D, 0x41] = true) toBytes
      fun data h => parse data = .ok h := by
  refine .of_read
    (fun data => ⟨data.u32At 4, data.u32At 8, .read data 12⟩) ?_
    (fun h _ => h.parse_toBytes) (fun h _ => h.length_toBytes) ?_
  · intro data h
    unfold parse size
    rw [ite_short_eq_ok_iff, and_assoc]
    refine and_congr_right fun hlong => ?_
    rw [startsWith_id_iff (by omega)]
    by_cases hid : data.u32At 0 = id
    · rw [if_pos hid, and_iff_right hid, Except.ok.injEq, eq_comm]
    · rw [if_neg hid]
      exact iff_of_false nofun fun hread => hid hread.1
  · intro data hlong hletters
    refine ⟨trivial, ?_⟩
    unfold toBytes Properties.toBytes Properties.read
    rw [← (startsWith_id_iff (by omega)).mp hletters]
    simp (disch := omega) only [ofUInt32_u32At_slice, byteAt_cons_slice,
      slice_append_slice]
    rfl

end Lzma.FrameHeader

-- =============================================================== packages

namespace Package

/-- The header of a manifest is read of any data that are long enough. -/
theorem ManifestHeader.exactCodec :
    ExactCodec 8 (fun _ => True) (fun _ => True) toBytes
      fun data h => parse data = .ok h := by
  refine .of_read
    (fun data => ⟨data.u16At 0, data.byteAt 2, data.byteAt 3, data.u32At 4⟩)
    ?_ (fun h _ => parse_toBytes h) (fun h _ => length_toBytes h) ?_
  · intro data h
    unfold parse size
    rw [ite_short_eq_ok_iff, Except.ok.injEq, and_true, eq_comm]
  · intro data hlong _
    refine ⟨trivial, ?_⟩
    unfold toBytes
    simp (disch := omega) only [List.cons_append, List.nil_append,
      ofUInt16_u16At_slice, ofUInt32_u32At_slice, byteAt_cons_slice,
      slice_append_slice]
    rfl

/-- The header of a wrapped file is read of any data that are long enough; its
checksum has ten bytes. -/
theorem WrapperHeader.exactCodec :
    ExactCodec 18 (fun h => h.checksum.length = 10) (fun _ => True) toBytes
      fun data h => parse data = .ok h := by
  refine .of_read
    (fun data => ⟨data.slice 0 checksumSize, data.u16At 10, data.byteAt 12,
      data.byteAt 13, data.u32At 14⟩)
    ?_ (fun h => parse_toBytes) (fun h => length_toBytes) ?_
  · intro data h
    unfold parse size
    rw [ite_short_eq_ok_iff, Except.ok.injEq, and_true, eq_comm]
  · intro data hlong _
    unfold checksumSize
    refine ⟨?_, ?_⟩
    · rw [length_slice]
      omega
    · unfold toBytes
      simp (disch := omega) only [List.cons_append, List.nil_append,
        ofUInt16_u16At_slice, ofUInt32_u32At_slice, byteAt_cons_slice,
        slice_append_slice]
      rfl

end Package

-- ======================================================== all of them

/-- The headers of maps, frames, manifests and wrapped files are read as
they are written, and written as they are read. An empty game lump stays
empty; of any other that is rewritten, the directory that is read is the
directory that was written. -/
theorem headers_exact :
    ExactCodec 1036 (fun _ => True) (fun _ => True) Map.Header.toBytes
        (fun data h => Map.Header.parse? data = some h)
      ∧ ExactCodec 17 (fun _ => True)
        (fun data => data.startsWith [0x4C, 0x5A, 0x4D, 0x41] = true)
        Lzma.FrameHeader.toBytes
        (fun data h => Lzma.FrameHeader.parse data = .ok h)
      ∧ ExactCodec 8 (fun _ => True) (fun _ => True)
        Package.ManifestHeader.toBytes
        (fun data h => Package.ManifestHeader.parse data = .ok h)
      ∧ ExactCodec 18 (fun h => h.checksum.length = 10) (fun _ => True)
        Package.WrapperHeader.toBytes
        (fun data h => Package.WrapperHeader.parse data = .ok h)
      ∧ ∀ (oldBase newBase : Nat) (data out : Bytes),
        (Map.transcodeGameLump oldBase newBase data).outcome = .ok out →
        data = [] ∧ out = []
          ∨ ∃ directory written sections,
            Map.Redirected oldBase newBase data out directory written sections
            ∧ Map.readDirectory out = .ok written := by
  refine ⟨Map.Header.exactCodec, Lzma.FrameHeader.exactCodec,
    Package.ManifestHeader.exactCodec, Package.WrapperHeader.exactCodec, ?_⟩
  intro oldBase newBase data out hout
  by_cases hdata : data = []
  · subst hdata
    cases hout
    exact .inl ⟨rfl, rfl⟩
  · exact .inr (Map.readDirectory_rewritten hdata hout)

/-- A frame header of sixteen different bytes and one behind it, a header of
a wrapped file with a checksum, and a game lump with static props and detail
objects, which moves by 64 bytes. -/
theorem headers_exact_samples :
    let frame : Bytes := [0x4C, 0x5A, 0x4D, 0x41, 1, 2, 3, 4, 5, 6, 7, 8,
      9, 10, 11, 12, 13, 14]
    let wrapper : Package.WrapperHeader :=
      ⟨[1, 2, 3, 4, 5, 6, 7, 8, 9, 10], 0x1234, 0x56, 0x78, 0x9ABCDEF0⟩
    let lump := Map.propLump (Map.propDirectory 7) (List.replicate 184 1)
    (17 ≤ frame.length
        ∧ frame.startsWith [0x4C, 0x5A, 0x4D, 0x41] = true
        ∧ ∃ h, Lzma.FrameHeader.parse frame = .ok h
          ∧ h.toBytes = frame.take 17)
      ∧ (wrapper.checksum.length = 10
        ∧ Package.WrapperHeader.parse (wrapper.toBytes ++ [99])
          = .ok wrapper)
      ∧ ∃ out directory sections,
        (Map.transcodeGameLump 1036 1100 lump).outcome = .ok out
        ∧ Map.Redirected 1036 1100 lump out directory
            [⟨Map.GameEntry.staticProps, 0, 6, 1136, 0⟩,
              ⟨Map.GameEntry.detailProps, 0, 4, 1214, 0⟩] sections
        ∧ Map.readDirectory out
          = .ok [⟨Map.GameEntry.staticProps, 0, 6, 1136, 0⟩,
              ⟨Map.GameEntry.detailProps, 0, 4, 1214, 0⟩] := by
  intro frame wrapper lump
  obtain ⟨-, hframes, -, hwrappers, hlumps⟩ := headers_exact
  refine ⟨⟨by decide, by decide, ?_⟩, ⟨rfl, hwrappers.reads wrapper rfl _⟩, ?_⟩
  · obtain ⟨h, hread⟩ := (hframes.readable frame).mpr ⟨by decide, by decide⟩
    exact ⟨h, hread, (hframes.writes frame h hread).2⟩
  · have hrun : (Map.transcodeGameLump 1036 1100 lump).outcome.toOption.bind
          (fun out => (Map.readDirectory out).toOption)
        = some [⟨Map.GameEntry.staticProps, 0, 6, 1136, 0⟩,
          ⟨Map.GameEntry.detailProps, 0, 4, 1214, 0⟩] := by
      decide +kernel
    obtain ⟨out, hout, hwritten⟩ := Reported.exists_ok_of_bind hrun
    obtain hnone | ⟨directory, written, sections, hredirected, hread⟩ :=
      hlumps 1036 1100 lump out hout
    · exact absurd hnone.1 (by decide)
    · obtain rfl := Except.ok.inj
        (hread.symm.trans (Reported.toOption_eq_some_iff.mp hwritten))
      exact ⟨out, directory, sections, hout, hredirected, hread⟩

end GameArchive
