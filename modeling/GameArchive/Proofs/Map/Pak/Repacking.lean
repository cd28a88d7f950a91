/-
What repacking makes of an archive.

A vendor archive is read forwards: the end record says how many files there
are, and each file where the next one begins. How a file is held is told by
its first bytes, with all that follows it in view; so a file that is short,
or empty, is told apart only because what follows it begins with a P. The
step lemma is about one file between any bytes and such bytes, and the run
over all files puts them one behind the other.

Main statement: `repack_rebuilds`.
-/
import GameArchive.Proofs.Lzma.Frame
import GameArchive.Proofs.Map.Pak.Archive
import GameArchive.Proofs.Map.Pak.LocalFile

namespace GameArchive.Map.Pak

open Bytes

-- ========================================================= the end record

/-- There is no record in what is shorter than one. -/
theorem lastEndRecord_short (found : Option Nat) :
    ∀ (data : Bytes) (offset : Nat), data.length < endSize →
      lastEndRecord offset found data = found := by
  intro data
  induction data with
  | nil => exact fun _ _ => rfl
  | cons b rest ih =>
      intro offset hshort
      have hnone : isEndRecord (b :: rest) = false := by
        unfold isEndRecord
        rw [List.take_of_length_le (Nat.le_of_lt hshort),
          decide_eq_false (Nat.ne_of_lt hshort), Bool.and_false]
      rw [lastEndRecord, hnone]
      exact ih (offset + 1) (Nat.lt_of_succ_lt hshort)

/-- The last 22 bytes are found, if they can be an end record. -/
theorem findEndRecord_append {front record : Bytes}
    (hrecord : isEndRecord record = true) (hlength : record.length = 22) :
    findEndRecord (front ++ record) = some front.length := by
  have hlast : ∀ (front : Bytes) (offset : Nat) (found : Option Nat),
      lastEndRecord offset found (front ++ record)
        = some (offset + front.length) := by
    intro front
    induction front with
    | nil =>
        intro offset found
        cases record with
        | nil => cases hlength
        | cons b rest =>
            rw [List.nil_append, lastEndRecord, hrecord]
            exact lastEndRecord_short _ rest _ (by
              rw [List.length_cons] at hlength
              unfold endSize
              omega)
    | cons b front ih =>
        intro offset found
        rw [List.cons_append, lastEndRecord, ih, List.length_cons,
          Nat.add_assoc, Nat.add_comm 1]
  unfold findEndRecord
  rw [hlast, Nat.zero_add]

-- ============================================================== one file

/-- How an archive holds the contents of a file: as they are, as a frame,
as a texture, or as a texture in a frame. What is no frame has the length
that the header gives as its unpacked size. -/
inductive Held (unpackedSize : UInt32) : (stored contents : Bytes) → Prop
  | plain {contents : Bytes}
      (hsize : unpackedSize.toNat = contents.length)
      (hframe : contents.startsWith [0x4C, 0x5A, 0x4D, 0x41] = false)
      (htexture : Texture.isTexture contents = false) :
      Held unpackedSize contents contents
  | framed {frame contents : Bytes}
      (hframe : Lzma.compress? contents = some frame)
      (htexture : Texture.isTexture contents = false) :
      Held unpackedSize frame contents
  | texture {texture contents : Bytes}
      (hsize : unpackedSize.toNat = texture.length)
      (htexture : Texture.isTexture texture = true)
      (hdecoded : Texture.decompress texture = .ok contents) :
      Held unpackedSize texture contents
  | framedTexture {frame texture contents : Bytes}
      (hframe : Lzma.compress? texture = some frame)
      (htexture : Texture.isTexture texture = true)
      (hdecoded : Texture.decompress texture = .ok contents) :
      Held unpackedSize frame contents

/-- A file of a vendor archive, the header of which tells how far it goes. -/
structure PackedFile extends LocalFile where
  contents : Bytes
  length_stored : packedSize.toNat = stored.length
  held : Held unpackedSize stored contents

namespace PackedFile

/-- The file behind its header. -/
def toBytes (f : PackedFile) : Bytes := f.toLocalFile.toBytes

/-- The file as it is stored plainly. -/
def plain (f : PackedFile) : StoredFile := ⟨f.name, f.contents⟩

end PackedFile

-- What begins with a P cannot finish the letters of a frame.
theorem isPrefixOf_letters {stored : Bytes} (tail : Bytes)
    (hstored : stored.startsWith [0x4C, 0x5A, 0x4D, 0x41] = false) :
    startsWith (stored ++ 0x50 :: tail) [0x4C, 0x5A, 0x4D, 0x41] = false := by
  unfold startsWith at hstored ⊢
  rcases stored with _ | ⟨a, _ | ⟨b, _ | ⟨c, _ | ⟨d, rest⟩⟩⟩⟩
  case cons.cons.cons.cons =>
      simp only [List.cons_append, List.isPrefixOf, Bool.and_true]
        at hstored ⊢
      exact hstored
  all_goals simp [List.isPrefixOf]

/-- What does not begin as a frame does not become one before a P. -/
theorem not_isFrame_append {stored after : Bytes}
    (hstored : stored.startsWith [0x4C, 0x5A, 0x4D, 0x41] = false)
    (hafter : after.head? = some 0x50) :
    Lzma.isFrame (stored ++ after) = false := by
  have hletters : ofUInt32 Lzma.FrameHeader.id
      = [0x4C, 0x5A, 0x4D, 0x41] := by
    decide
  obtain ⟨tail, rfl⟩ : ∃ tail, after = 0x50 :: tail := by
    cases after with
    | nil => cases hafter
    | cons b tail =>
        cases hafter
        exact ⟨tail, rfl⟩
  unfold Lzma.isFrame
  rw [hletters, isPrefixOf_letters tail hstored, Bool.and_false]

/-- A texture does not begin as a frame. -/
theorem not_letters_of_isTexture {texture : Bytes}
    (h : Texture.isTexture texture = true) :
    texture.startsWith [0x4C, 0x5A, 0x4D, 0x41] = false := by
  unfold Texture.isTexture Texture.signature startsWith at *
  cases texture with
  | nil => cases h
  | cons b rest =>
      simp only [List.isPrefixOf, Bool.and_eq_true, beq_iff_eq] at h
      rw [List.isPrefixOf, ← h.1]
      rfl

theorem unpackTexture_plain {contents : Bytes}
    (h : Texture.isTexture contents = false) :
    unpackTexture contents = .ok contents := by
  unfold unpackTexture
  rw [h]
  rfl

theorem unpackTexture_texture {texture contents : Bytes}
    (htexture : Texture.isTexture texture = true)
    (hdecoded : Texture.decompress texture = .ok contents) :
    unpackTexture texture = .ok contents := by
  unfold unpackTexture
  rw [htexture, hdecoded]
  rfl

/-- What is no frame goes as far as its unpacked size says. -/
theorem readContents_stored (total offset : Nat) (packed : UInt32)
    {unpacked : UInt32} {stored after : Bytes}
    (hframe : stored.startsWith [0x4C, 0x5A, 0x4D, 0x41] = false)
    (hsize : unpacked.toNat = stored.length)
    (hafter : after.head? = some 0x50) :
    readContents total offset packed unpacked (stored ++ after)
      = .ok (stored, stored.length) := by
  unfold readContents
  rw [not_isFrame_append hframe hafter, if_neg Bool.false_ne_true, hsize,
    if_neg (by rw [List.length_append]; omega), List.take_left]

/-- A frame goes as far as its packed size says, whatever follows it. -/
theorem readContents_framed (total offset : Nat) (unpacked : UInt32)
    {packed : UInt32} {frame contents : Bytes}
    (hframe : Lzma.compress? contents = some frame) (after : Bytes)
    (hsize : packed.toNat = frame.length) :
    readContents total offset packed unpacked (frame ++ after)
      = .ok (contents, frame.length) := by
  unfold readContents
  rw [Lzma.isFrame_append hframe, if_pos rfl, Lzma.decompress_append hframe,
    hsize]
  rfl

/-- However it is held, a file is decoded to its contents, and the next one
is found behind what is stored. -/
theorem readContents_held (total offset : Nat) {packed unpacked : UInt32}
    {stored contents after : Bytes} (h : Held unpacked stored contents)
    (hpacked : packed.toNat = stored.length)
    (hafter : after.head? = some 0x50) :
    ∃ inner, readContents total offset packed unpacked (stored ++ after)
        = .ok (inner, stored.length)
      ∧ unpackTexture inner = .ok contents := by
  cases h with
  | plain hsize hframe htexture =>
      exact ⟨_, readContents_stored _ _ _ hframe hsize hafter,
        unpackTexture_plain htexture⟩
  | framed hframe htexture =>
      exact ⟨_, readContents_framed _ _ _ hframe after hpacked,
        unpackTexture_plain htexture⟩
  | texture hsize htexture hdecoded =>
      exact ⟨_, readContents_stored _ _ _ (not_letters_of_isTexture htexture)
        hsize hafter, unpackTexture_texture htexture hdecoded⟩
  | framedTexture hframe htexture hdecoded =>
      exact ⟨_, readContents_framed _ _ _ hframe after hpacked,
        unpackTexture_texture htexture hdecoded⟩

/-- A file is read where it is, whatever is before it, and the next one is
looked for right behind it. -/
theorem readFile_packed (f : PackedFile) {after : Bytes} (before : Bytes)
    (index : Nat) (hafter : after.head? = some 0x50) :
    readFile (before ++ (f.toBytes ++ after)) index before.length
      = .ok (f.plain, before.length + f.toBytes.length) := by
  obtain ⟨inner, hinner, htexture⟩ := readContents_held
    (before ++ (f.toBytes ++ after)).length
    (before.length + f.frontLength) f.held f.length_stored hafter
  have hread := f.readFile_of_contents after before index hinner htexture
  unfold PackedFile.toBytes
  rw [hread, f.length_toBytes, ← Nat.add_assoc]
  rfl

-- ========================================================= all the files

/-- Files that follow each other are read one after the other. -/
theorem readFiles_packed {after : Bytes} (hafter : after.head? = some 0x50)
    (files : List PackedFile) :
    ∀ (before : Bytes) (index : Nat),
      readFiles (before ++ (files.flatMap PackedFile.toBytes ++ after))
          files.length index before.length
        = .ok (files.map PackedFile.plain) := by
  induction files with
  | nil => exact fun _ _ => rfl
  | cons f rest ih =>
      intro before index
      have hfile := readFile_packed f before index
        (head?_flatMap (f := PackedFile.toBytes) (fun _ _ => rfl) rest
          hafter)
      have hrest := ih (before ++ f.toBytes) (index + 1)
      rw [List.append_assoc, List.length_append] at hrest
      rw [List.flatMap_cons, List.append_assoc, List.length_cons, readFiles,
        hfile]
      simp only [bind, Except.bind, hrest]
      rfl

/-- The central directory of a vendor archive is never read; it may be
missing. -/
theorem head?_directory {directory record : Bytes}
    (hdirectory : directory = [] ∨ [0x50, 0x4B] <+: directory)
    (hrecord : [0x50, 0x4B, 5, 6] <+: record) :
    (directory ++ record).head? = some 0x50 := by
  obtain ⟨record, rfl⟩ := hrecord
  rcases hdirectory with rfl | ⟨rest, rfl⟩
  · rfl
  · rfl

/-- The files of a vendor archive are archived anew. -/
theorem repack_packed (files : List PackedFile) {directory record : Bytes}
    (hdirectory : directory = [] ∨ [0x50, 0x4B] <+: directory)
    (hrecord : [0x50, 0x4B, 5, 6] <+: record) (hlength : record.length = 22)
    (hcount : (record.u16At 10).toNat = files.length) :
    repack (files.flatMap PackedFile.toBytes ++ (directory ++ record))
      = ⟨[], .ok (archive (files.map PackedFile.plain))⟩ := by
  have hletters : ofUInt32 endSignature = [0x50, 0x4B, 5, 6] := by
    decide
  have hend : isEndRecord record = true := by
    unfold isEndRecord startsWith endSize
    rw [hletters, List.isPrefixOf_iff_prefix.mpr hrecord,
      List.take_of_length_le (Nat.le_of_eq hlength), hlength]
    rfl
  have hplace : findEndRecord (files.flatMap PackedFile.toBytes ++ directory
      ++ record)
        = some (files.flatMap PackedFile.toBytes ++ directory).length :=
    findEndRecord_append hend hlength
  have htotal : (u16At (files.flatMap PackedFile.toBytes ++ directory
      ++ record) ((files.flatMap PackedFile.toBytes
        ++ directory).length + 10)).toNat = files.length := by
    rw [u16At_behind rfl, hcount]
  have hfiles := readFiles_packed (head?_directory hdirectory hrecord) files
    [] 0
  have hdata : ¬ (files.flatMap PackedFile.toBytes
      ++ directory ++ record).isEmpty = true := by
    rw [List.isEmpty_iff, List.append_eq_nil_iff]
    rintro ⟨-, rfl⟩
    cases hlength
  rw [List.nil_append, List.length_nil, ← List.append_assoc] at hfiles
  rw [← List.append_assoc]
  -- The record at the end is found, and its count is that of the files.
  unfold repack
  rw [if_neg hdata, hplace]
  dsimp only
  rw [htotal, hfiles]
  rfl

/-- An archive is rebuilt from the files that it holds, however it holds
them, with nothing out of the ordinary. -/
theorem repack_rebuilds (files : List PackedFile) {directory record : Bytes}
    (hdirectory : directory = [] ∨ [0x50, 0x4B] <+: directory)
    (hrecord : [0x50, 0x4B, 5, 6] <+: record) (hlength : record.length = 22)
    (hcount : (record.u16At 10).toNat = files.length) :
    ∃ out, repack (files.flatMap PackedFile.toBytes
          ++ (directory ++ record)) = ⟨[], .ok out⟩
      ∧ (out.length < 0x100000000 →
        IsArchive out (files.map PackedFile.plain)) := by
  refine ⟨archive (files.map PackedFile.plain),
    repack_packed files hdirectory hrecord hlength hcount, fun hshort => ?_⟩
  refine isArchive_archive ?_ ?_ hshort
  · rw [List.length_map, ← hcount]
    exact UInt16.toNat_lt _
  · intro f hf
    obtain ⟨packed, -, rfl⟩ := List.mem_map.mp hf
    exact packed.length_name

/-- Four files that hold one byte or two: plainly, as a frame, as a texture,
and as a frame of a texture. The central directory is missing, and the end
record has nothing but the count. -/
theorem repack_rebuilds_four_ways :
    let texture : Bytes := [0x43, 0x4F, 0x32, 1, 1, 0, 0, 0, 32, 0, 0, 0,
      1, 0, 0, 0, 9]
    let record : Bytes := [0x50, 0x4B, 5, 6, 0, 0, 0, 0, 4, 0, 4, 0, 0, 0, 0,
      0, 0, 0, 0, 0, 0, 0]
    let contents : List StoredFile := [⟨[0x61], [0x4C, 0x5A]⟩, ⟨[0x62], [7]⟩,
      ⟨[0x63], [9]⟩, ⟨[0x64], [9]⟩]
    ∃ (frame textureFrame : Bytes) (files : List PackedFile),
      Lzma.compress? [7] = some frame
        ∧ Lzma.compress? texture = some textureFrame
        ∧ files.map (·.stored)
          = [[0x4C, 0x5A], frame, texture, textureFrame]
        ∧ files.map PackedFile.plain = contents
        ∧ (([] : Bytes) = [] ∨ [0x50, 0x4B] <+: ([] : Bytes))
        ∧ [0x50, 0x4B, 5, 6] <+: record ∧ record.length = 22
        ∧ (record.u16At 10).toNat = files.length
        ∧ ∃ out, repack (files.flatMap PackedFile.toBytes ++ ([] ++ record))
              = ⟨[], .ok out⟩
            ∧ out.length = 339 ∧ IsArchive out contents := by
  intro texture record contents
  obtain ⟨frame, hframe⟩ := Lzma.exists_compress? [7] (by decide)
  obtain ⟨textureFrame, htextureFrame⟩ :=
    Lzma.exists_compress? texture (by decide)
  have hlengths := And.intro (Lzma.length_compress?_lt hframe (by decide))
    (Lzma.length_compress?_lt htextureFrame (by decide))
  have hdecoded : Texture.decompress texture = .ok [9] := by cbv
  let junk : Bytes := List.replicate 14 0
  let files : List PackedFile :=
    [⟨⟨[0x61], junk, 2, 2, [1, 2, 3], [0x4C, 0x5A], by decide, rfl,
        by decide⟩, [0x4C, 0x5A], rfl, .plain rfl rfl rfl⟩,
      ⟨⟨[0x62], junk, UInt32.ofNat frame.length, 5, [], frame, by decide, rfl,
        by decide⟩, [7], UInt32.toNat_ofNat_of_lt' hlengths.1,
        .framed hframe rfl⟩,
      ⟨⟨[0x63], junk, 17, 17, [], texture, by decide, rfl, by decide⟩, [9],
        rfl, .texture rfl rfl hdecoded⟩,
      ⟨⟨[0x64], junk, UInt32.ofNat textureFrame.length, 0, [4], textureFrame,
        by decide, rfl, by decide⟩, [9], UInt32.toNat_ofNat_of_lt' hlengths.2,
        .framedTexture htextureFrame rfl hdecoded⟩]
  have hrecord : [0x50, 0x4B, 5, 6] <+: record := by decide
  have hcount : (record.u16At 10).toNat = files.length := by
    show (record.u16At 10).toNat = 4
    decide
  obtain ⟨out, hout, harchive⟩ :=
    repack_rebuilds files (Or.inl rfl) hrecord rfl hcount
  have hlength : out.length = 339 := by
    have hpacked := repack_packed files (Or.inl rfl) hrecord rfl hcount
    rw [hout] at hpacked
    cases hpacked
    show (archive contents).length = 339
    decide +kernel
  exact ⟨frame, textureFrame, files, hframe, htextureFrame, rfl, rfl, .inl rfl,
    hrecord, rfl, hcount, out, hout, hlength, harchive (by omega)⟩

end GameArchive.Map.Pak
