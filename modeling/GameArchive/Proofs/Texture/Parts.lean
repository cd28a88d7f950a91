/-
Textures and the parts they are made of.

A texture's table says where its parts lie, and nothing keeps them in
order, apart, or even behind the table. So a file of given parts is
described by two things that know nothing of each other: it begins with a
table, and it has the body of each part at the place that the table names.
Decoding needs no more, as a verbatim part is measured by the table and a
frame by itself.

The other way round, a file that can be decoded is read pair by pair:
`PieceAt` says what a pair of words stands for, by the lowest bit of the
first word, and the pieces in the order of the table are the texture.

Main statement: `decompress_parts`.
-/
import GameArchive.Texture
import GameArchive.Proofs.Bytes.Pieces
import GameArchive.Proofs.Lzma.Frame
import GameArchive.Proofs.Reported
import Mathlib.Data.List.Forall2

namespace GameArchive.Texture

open Bytes

variable {data out : Bytes}

-- ================================================================ parts

/-- A part of a texture, and the offset of its body in the file: the part
itself, or a frame of it. The table has two words for each, and the second
word of a frame says nothing. -/
inductive Part where
  | raw (offset : Nat) (contents : Bytes)
  | framed (offset : Nat) (contents : Bytes) (spare : UInt32)

namespace Part

/-- The bytes that a part adds to the texture. -/
def contents : Part → Bytes
  | .raw _ contents => contents
  | .framed _ contents _ => contents

/-- The two words of a part in the table. -/
def pair : Part → Bytes
  | .raw offset contents =>
    ofUInt32 (UInt32.ofNat (2 * offset))
      ++ ofUInt32 (UInt32.ofNat contents.length)
  | .framed offset _ spare =>
    ofUInt32 (UInt32.ofNat (2 * offset + 1)) ++ ofUInt32 spare

/-- Whether a file has the body of a part at the part's offset. -/
def HeldBy (data : Bytes) : Part → Prop
  | .raw offset contents =>
    offset ≤ data.length ∧ contents <+: data.drop offset
  | .framed offset contents _ =>
    ∃ frame, Lzma.compress? contents = some frame
      ∧ offset ≤ data.length ∧ frame <+: data.drop offset

/-- The chunk that the table has for a part. -/
def chunk : Part → Chunk
  | .raw offset contents => .raw offset contents.length
  | .framed offset _ _ => .frame offset

end Part

/-- The texture that parts make up. -/
def joined (parts : List Part) : Bytes := parts.flatMap Part.contents

/-- The header and the table of a texture of these parts. -/
def front (parts : List Part) : Bytes :=
  signature ++ (UInt8.ofNat parts.length
    :: (ofUInt32 (UInt32.ofNat (joined parts).length)
      ++ parts.flatMap Part.pair))

theorem Part.length_pair (p : Part) : p.pair.length = 8 := by
  cases p with
  | raw offset contents => rfl
  | framed offset contents spare => rfl

/-- The table has eight bytes for each part, behind eight of its own. -/
theorem length_front (parts : List Part) :
    (front parts).length = 8 + 8 * parts.length := by
  unfold front signature
  simp only [List.length_append, List.length_cons, List.length_nil,
    length_ofUInt32, length_flatMap_const Part.length_pair]
  omega

/-- A part is no longer than all parts together. -/
theorem length_contents_le {parts : List Part} {p : Part} (hp : p ∈ parts) :
    p.contents.length ≤ (joined parts).length := by
  obtain ⟨before, after, rfl⟩ := List.append_of_mem hp
  unfold joined
  rw [List.flatMap_append, List.flatMap_cons, List.length_append,
    List.length_append]
  omega

-- =============================================================== chunks

namespace Chunk

variable {offset : Nat} {piece : Bytes}

/-- A part that is stored plainly is what lies at its place, if all of it
does. -/
theorem decode_raw_ok_iff {length : Nat} :
    (raw offset length).decode data = .ok piece
      ↔ offset + length ≤ data.length ∧ data.slice offset length = piece := by
  show (if data.length < offset + length then _ else _) = _ ↔ _
  by_cases hinside : offset + length ≤ data.length
  · rw [if_neg (Nat.not_lt.mpr hinside)]
    exact ⟨fun h => ⟨hinside, Except.ok.inj h⟩, fun h => congrArg _ h.2⟩
  · rw [if_pos (Nat.lt_of_not_le hinside)]
    exact ⟨fun h => (by cases h), fun h => absurd h.1 hinside⟩

/-- A part that is stored as a frame is what the frame holds, if it begins
inside the data. -/
theorem decode_frame_ok_iff :
    (frame offset).decode data = .ok piece
      ↔ offset ≤ data.length
        ∧ Lzma.decompress (data.drop offset) = .ok piece := by
  show (if data.length < offset then _ else _) = _ ↔ _
  by_cases hinside : offset ≤ data.length
  · rw [if_neg (Nat.not_lt.mpr hinside)]
    exact ⟨fun h => ⟨hinside, h⟩, fun h => h.2⟩
  · rw [if_pos (Nat.lt_of_not_le hinside)]
    exact ⟨fun h => (by cases h), fun h => absurd h.1 hinside⟩

end Chunk

namespace Part

/-- A pair reads back as the chunk, if its words can hold it. -/
theorem ofWords_pair {p : Part} (h : p.HeldBy data)
    (hdata : data.length < 0x80000000)
    (hlength : p.contents.length < 0x100000000) (rest : Bytes) :
    Chunk.ofWords ((p.pair ++ rest).u32At 0) ((p.pair ++ rest).u32At 4)
      = p.chunk := by
  cases p with
  | raw offset contents =>
      have hoffset : offset ≤ data.length := h.1
      have hfirst : (UInt32.ofNat (2 * offset)).toNat = 2 * offset :=
        UInt32.toNat_ofNat_of_lt' (by show _ < 0x100000000; omega)
      have hsecond : (UInt32.ofNat contents.length).toNat = contents.length :=
        UInt32.toNat_ofNat_of_lt' hlength
      unfold pair Chunk.ofWords
      simp only [List.append_assoc, u32At_head, u32At_behind_word _ _ 0]
      rw [hfirst, hsecond, if_neg (by omega),
        Nat.mul_div_cancel_left _ (by decide)]
      rfl
  | framed offset contents spare =>
      obtain ⟨-, -, hoffset, -⟩ := h
      have hfirst : (UInt32.ofNat (2 * offset + 1)).toNat = 2 * offset + 1 :=
        UInt32.toNat_ofNat_of_lt' (by show _ < 0x100000000; omega)
      unfold pair Chunk.ofWords
      simp only [List.append_assoc, u32At_head]
      rw [hfirst, if_pos (by omega),
        show (2 * offset + 1) / 2 = offset from by omega]
      rfl

/-- Where the body of a part lies, its chunk decodes to the part. -/
theorem decode_chunk {p : Part} (h : p.HeldBy data) :
    p.chunk.decode data = .ok p.contents := by
  cases p with
  | raw offset contents =>
      obtain ⟨hoffset, rest, hrest⟩ := h
      have hlength := congrArg List.length hrest
      rw [List.length_append, List.length_drop] at hlength
      refine Chunk.decode_raw_ok_iff.mpr ⟨by omega, ?_⟩
      rw [slice, ← hrest, List.take_left]
      rfl
  | framed offset contents spare =>
      obtain ⟨frame, hframe, hoffset, rest, hrest⟩ := h
      refine Chunk.decode_frame_ok_iff.mpr ⟨hoffset, ?_⟩
      rw [← hrest]
      exact Lzma.decompress_append hframe rest

end Part

-- ============================================================ the table

/-- The table of parts is read as it was written. -/
theorem readTable_pairs (hdata : data.length < 0x80000000) {parts : List Part}
    (hheld : ∀ p ∈ parts, p.HeldBy data)
    (hlength : ∀ p ∈ parts, p.contents.length < 0x100000000) (rest : Bytes) :
    readTable parts.length (parts.flatMap Part.pair ++ rest)
      = parts.map Part.chunk := by
  induction parts with
  | nil => rfl
  | cons p parts ih =>
      have hchunk := Part.ofWords_pair (hheld p List.mem_cons_self) hdata
        (hlength p List.mem_cons_self) []
      have hparts := ih (fun q hq => hheld q (List.mem_cons_of_mem _ hq))
        fun q hq => hlength q (List.mem_cons_of_mem _ hq)
      rw [List.append_nil] at hchunk
      unfold readTable at hparts ⊢
      rw [List.flatMap_cons, List.append_assoc, List.length_cons, pieces,
        List.take_left' p.length_pair, List.drop_left' p.length_pair,
        List.map_cons, List.map_cons, hchunk, hparts]

/-- The front of a texture tells its size and its chunks, whatever follows
it. -/
theorem parse_front {parts : List Part} (hdata : data.length < 0x80000000)
    (hcount : parts.length ≤ 255)
    (hjoined : (joined parts).length < 0x100000000)
    (hheld : ∀ p ∈ parts, p.HeldBy data) (rest : Bytes) :
    Layout.parse (front parts ++ rest)
      = .ok ⟨UInt32.ofNat (joined parts).length, parts.map Part.chunk⟩ := by
  have hlength : (front parts ++ rest).length
      = 8 + 8 * parts.length + rest.length := by
    rw [List.length_append, length_front]
  have hsignature : isTexture (front parts ++ rest) = true := by
    unfold isTexture front
    rw [List.append_assoc]
    exact startsWith_append _ _
  have hbyte : ((front parts ++ rest).byteAt 3).toNat = parts.length := by
    show (UInt8.ofNat parts.length).toNat = _
    exact UInt8.toNat_ofNat_of_lt' (by show _ < 256; omega)
  have hsize : (front parts ++ rest).u32At 4
      = UInt32.ofNat (joined parts).length := by
    unfold front signature
    simp
  have htable : (front parts ++ rest).drop headerSize
      = parts.flatMap Part.pair ++ rest := by
    unfold front
    rw [List.append_assoc, List.cons_append, List.append_assoc]
    exact drop_behind (n := 8) (a := signature ++ UInt8.ofNat parts.length
      :: ofUInt32 (UInt32.ofNat (joined parts).length)) rfl _ 0
  -- The fields of the front pass the checks in their order.
  unfold Layout.parse headerSize at *
  rw [if_neg (by omega), hsignature, Bool.not_true, if_neg Bool.false_ne_true]
  dsimp only
  rw [hbyte, if_neg (by omega), hsize, htable,
    readTable_pairs hdata hheld
      (fun p hp => Nat.lt_of_le_of_lt (length_contents_le hp) hjoined)]

-- ============================================================= decoding

/-- Chunks are decoded one by one. -/
theorem decodeChunks_ok_iff {chunks : List Chunk} :
    ∀ {out : Bytes}, decodeChunks data chunks = .ok out
      ↔ ∃ pieces, List.Forall₂
          (fun chunk piece => chunk.decode data = .ok piece) chunks pieces
        ∧ out = pieces.flatten := by
  induction chunks with
  | nil =>
      intro out
      constructor
      · intro h
        cases h
        exact ⟨[], .nil, rfl⟩
      · rintro ⟨pieces, hpieces, rfl⟩
        cases hpieces
        rfl
  | cons chunk rest ih =>
      intro out
      constructor
      · intro h
        obtain ⟨head, hhead, h⟩ := Reported.except_bind_ok h
        obtain ⟨tail, htail, h⟩ := Reported.except_bind_ok h
        cases h
        obtain ⟨pieces, hpieces, rfl⟩ := ih.mp htail
        exact ⟨head :: pieces, .cons hhead hpieces, rfl⟩
      · rintro ⟨pieces, hpieces, rfl⟩
        cases hpieces with
        | cons hhead hrest =>
            unfold decodeChunks
            rw [hhead, ih.mpr ⟨_, hrest, rfl⟩]
            rfl

/-- A texture decodes to its chunks if it says their size, and is not
empty. -/
theorem decode_ok_iff {layout : Layout} :
    layout.decode data = .ok out
      ↔ layout.decodedSize ≠ 0 ∧ out.length = layout.decodedSize.toNat
        ∧ decodeChunks data layout.chunks = .ok out := by
  unfold Layout.decode
  by_cases hempty : layout.decodedSize = 0
  · rw [if_pos hempty]
    exact ⟨fun h => (by cases h), fun h => absurd hempty h.1⟩
  rw [if_neg hempty]
  constructor
  · intro h
    obtain ⟨found, hfound, h⟩ := Reported.except_bind_ok h
    split at h
    case isTrue hsize =>
        cases h
        exact ⟨hempty, hsize, hfound⟩
    case isFalse => cases h
  · rintro ⟨-, hsize, hfound⟩
    rw [hfound]
    show (if _ then _ else _) = _
    rw [if_pos hsize]
    rfl

-- ====================================================== what was decoded

/-- What the pair of words at an index of the table stands for. -/
inductive PieceAt (data : Bytes) (k : Nat) (piece : Bytes) : Prop
  | raw (heven : (data.u32At (8 + 8 * k)).toNat % 2 = 0)
      (hinside : (data.u32At (8 + 8 * k)).toNat / 2
        + (data.u32At (12 + 8 * k)).toNat ≤ data.length)
      (hpiece : data.slice ((data.u32At (8 + 8 * k)).toNat / 2)
        (data.u32At (12 + 8 * k)).toNat = piece)
  | framed (hodd : (data.u32At (8 + 8 * k)).toNat % 2 = 1)
      (hinside : (data.u32At (8 + 8 * k)).toNat / 2 ≤ data.length)
      (hpiece : Lzma.decompress
        (data.drop ((data.u32At (8 + 8 * k)).toNat / 2)) = .ok piece)

/-- A file has the letters and a whole table, and the pieces of its table
are a texture of the size that it declares. -/
structure Yields (data out : Bytes) : Prop where
  letters : signature <+: data
  table : 8 + 8 * (data.byteAt 3).toNat ≤ data.length
  pieces : ∃ pieces, List.Forall₂ (PieceAt data)
      (List.range (data.byteAt 3).toNat) pieces
    ∧ out = pieces.flatten
  declared : out.length = (data.u32At 4).toNat
  nonempty : data.u32At 4 ≠ 0

/-- Decoding an entry of the table finds the piece that lies there. -/
theorem decode_ofWords_ok_iff {k : Nat} {piece : Bytes} :
    (Chunk.ofWords (data.u32At (8 + 8 * k)) (data.u32At (12 + 8 * k))).decode
        data = .ok piece
      ↔ PieceAt data k piece := by
  unfold Chunk.ofWords
  rcases Nat.mod_two_eq_zero_or_one (data.u32At (8 + 8 * k)).toNat
    with heven | hodd
  · rw [if_neg (by omega), Chunk.decode_raw_ok_iff]
    constructor
    · exact fun h => .raw heven h.1 h.2
    · intro h
      cases h with
      | raw _ hinside hpiece => exact ⟨hinside, hpiece⟩
      | framed hodd => omega
  · rw [if_pos hodd, Chunk.decode_frame_ok_iff]
    constructor
    · exact fun h => .framed hodd h.1 h.2
    · intro h
      cases h with
      | raw heven => omega
      | framed _ hinside hpiece => exact ⟨hinside, hpiece⟩

/-- The table is read entry by entry, each at its own place. -/
theorem readTable_eq (count : Nat) :
    readTable count (data.drop 8)
      = (List.range count).map fun k =>
          Chunk.ofWords (data.u32At (8 + 8 * k)) (data.u32At (12 + 8 * k)) := by
  unfold readTable
  rw [pieces_eq_map, List.map_map]
  refine List.map_congr_left fun k _ => ?_
  have hword : ∀ n, n + 4 ≤ 8 →
      u32At (slice (data.drop 8) (k * 8) 8) n = data.u32At (8 + 8 * k + n) := by
    intro n hn
    unfold u32At slice
    rw [List.drop_drop, List.drop_take, List.take_take, List.drop_drop,
      Nat.min_eq_left (by omega), Nat.mul_comm]
  rw [Function.comp, hword 0 (by decide), hword 4 (by decide), Nat.add_zero,
    Nat.add_right_comm]

/-- Header and table are read where both are whole. -/
theorem parse_ok_iff {layout : Layout} :
    Layout.parse data = .ok layout
      ↔ signature <+: data ∧ 8 + 8 * (data.byteAt 3).toNat ≤ data.length
        ∧ layout = ⟨data.u32At 4, readTable (data.byteAt 3).toNat
            (data.drop 8)⟩ := by
  have hletters : isTexture data = true ↔ signature <+: data :=
    List.isPrefixOf_iff_prefix
  unfold Layout.parse headerSize
  constructor
  · intro h
    split at h
    case isTrue => cases h
    split at h
    case isTrue => cases h
    case isFalse hsignature =>
        rw [Bool.not_eq_true', Bool.not_eq_false, hletters] at hsignature
        dsimp only at h
        split at h
        case isTrue => cases h
        case isFalse htable =>
            exact ⟨hsignature, by omega, (Except.ok.inj h).symm⟩
  · rintro ⟨hsignature, htable, rfl⟩
    rw [if_neg (by omega), hletters.mpr hsignature, Bool.not_true,
      if_neg Bool.false_ne_true]
    dsimp only
    rw [if_neg (by omega)]

theorem decompress_eq (hdata : data ≠ []) :
    decompress data = (Layout.parse data).bind (·.decode data) := by
  unfold decompress
  rw [if_neg (by rw [List.isEmpty_iff]; exact hdata)]
  rfl

/-- A texture is decompressed exactly to what its table yields. -/
theorem decompress_ok_iff (hdata : data ≠ []) :
    decompress data = .ok out ↔ Yields data out := by
  have hpieces : decodeChunks data (readTable (data.byteAt 3).toNat
        (data.drop 8)) = .ok out
      ↔ ∃ pieces, List.Forall₂ (PieceAt data)
          (List.range (data.byteAt 3).toNat) pieces
        ∧ out = pieces.flatten := by
    rw [decodeChunks_ok_iff, readTable_eq]
    simp only [List.forall₂_map_left_iff, decode_ofWords_ok_iff]
  rw [decompress_eq hdata]
  constructor
  · intro h
    obtain ⟨layout, hlayout, h⟩ := Reported.except_bind_ok h
    obtain ⟨hletters, htable, rfl⟩ := parse_ok_iff.mp hlayout
    obtain ⟨hnonempty, hdeclared, hchunks⟩ := decode_ok_iff.mp h
    exact ⟨hletters, htable, hpieces.mp hchunks, hdeclared, hnonempty⟩
  · rintro ⟨hletters, htable, hyield, hdeclared, hnonempty⟩
    rw [parse_ok_iff.mpr ⟨hletters, htable, rfl⟩]
    exact decode_ok_iff.mpr ⟨hnonempty, hdeclared, hpieces.mpr hyield⟩

/-- A file that begins with the table of some parts, and has each part where
the table says, decodes to the parts one after the other; and what any file
decodes to is what it has at the places of its table, in the order of the
table, and as much as it declares. -/
theorem decompress_parts :
    (∀ {parts : List Part} {data : Bytes}, parts.length ≤ 255 →
      0 < (joined parts).length → (joined parts).length < 0x100000000 →
      data.length < 0x80000000 → front parts <+: data →
      (∀ p ∈ parts, p.HeldBy data) →
      decompress data = .ok (joined parts))
    ∧ ∀ {data out : Bytes}, data ≠ [] →
      (decompress data = .ok out ↔ Yields data out) := by
  refine ⟨?_, decompress_ok_iff⟩
  intro parts data hcount hpos hjoined hdata hfront hheld
  obtain ⟨rest, rfl⟩ := hfront
  have hnonempty : front parts ++ rest ≠ [] := by
    intro hnil
    cases hnil
  have hsize : (UInt32.ofNat (joined parts).length).toNat
      = (joined parts).length := UInt32.toNat_ofNat_of_lt' hjoined
  rw [decompress_eq hnonempty, parse_front hdata hcount hjoined hheld rest]
  refine decode_ok_iff.mpr ⟨?_, hsize.symm, ?_⟩
  · intro hzero
    rw [show UInt32.ofNat _ = 0 from hzero] at hsize
    exact absurd hsize (Nat.ne_of_lt hpos)
  · refine decodeChunks_ok_iff.mpr ⟨parts.map Part.contents, ?_,
      List.flatMap_def⟩
    rw [List.forall₂_map_left_iff, List.forall₂_map_right_iff,
      List.forall₂_same]
    exact fun p hp => Part.decode_chunk (hheld p hp)

/-- A texture that ends its file with its first part, a frame; of the other
two, one lies within the other. -/
theorem decompress_parts_overlapping :
    ∃ (frame data : Bytes) (parts : List Part),
      Lzma.compress? [1, 2, 3] = some frame
        ∧ parts = [.framed 37 [1, 2, 3] 9, .raw 32 [72, 69, 76, 76, 79],
          .raw 34 [76, 76]]
        ∧ data = front parts ++ ([72, 69, 76, 76, 79] ++ frame)
        ∧ data.length < 0x80000000 ∧ (∀ p ∈ parts, p.HeldBy data)
        ∧ decompress data = .ok [1, 2, 3, 72, 69, 76, 76, 79, 76, 76]
        ∧ Yields data [1, 2, 3, 72, 69, 76, 76, 79, 76, 76] := by
  obtain ⟨frame, hframe⟩ := Lzma.exists_compress? [1, 2, 3] (by decide)
  have hlength := Lzma.length_compress?_le hframe
  let parts : List Part := [.framed 37 [1, 2, 3] 9,
    .raw 32 [72, 69, 76, 76, 79], .raw 34 [76, 76]]
  let data := front parts ++ ([72, 69, 76, 76, 79] ++ frame)
  have hdata : data.length = 37 + frame.length := by
    rw [List.length_append, length_front, List.length_append]
    show 32 + (5 + frame.length) = _
    omega
  have hheld : ∀ p ∈ parts, p.HeldBy data := by
    intro p hp
    rcases List.mem_cons.mp hp with rfl | hp
    · exact ⟨frame, hframe, by omega, [], List.append_nil frame⟩
    rcases List.mem_cons.mp hp with rfl | hp
    · exact ⟨by omega, frame, rfl⟩
    · cases List.mem_singleton.mp hp
      exact ⟨by omega, 79 :: frame, rfl⟩
  have hshort : data.length < 0x80000000 := by
    rw [hdata]
    exact Nat.lt_of_le_of_lt (Nat.add_le_add_left hlength 37) (by decide)
  have hdecoded : decompress data = .ok (joined parts) :=
    decompress_parts.1 (by decide) (by decide) (by decide) hshort
      (List.prefix_append _ _) hheld
  have hnonempty : data ≠ [] := List.ne_nil_of_length_pos (by omega)
  exact ⟨frame, data, parts, hframe, rfl, rfl, hshort, hheld, hdecoded,
    (decompress_parts.2 hnonempty).mp hdecoded⟩

end GameArchive.Texture
