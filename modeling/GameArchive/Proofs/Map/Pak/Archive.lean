/-
An archive, as its reader finds it.

The header of a file, its entry in the central directory and the end record
are told apart by their signatures, and everything in them is read by
offset. `IsArchive` says what is read where: the files follow each other
from the start, the directory follows them, the end record is last, and
nothing lies in between. It says nothing of how an archive is written.

Main statement: `isArchive_archive`.
-/
import GameArchive.Map.Pak
import GameArchive.Proofs.Bytes.Pieces

namespace GameArchive.Map.Pak

open Bytes

-- ====================================================== what is read where

/-- What both headers of a file say of it, from here on: no flags, no
compression, no time, no date, the checksum, the size twice, and the length
of the name. -/
structure Described (here : Bytes) (f : StoredFile) : Prop where
  flags : here.u16At 0 = 0
  method : here.u16At 2 = 0
  time : here.u16At 4 = 0
  date : here.u16At 6 = 0
  checksum : here.u32At 8 = Crc32.checksum f.contents
  packedSize : (here.u32At 12).toNat = f.contents.length
  unpackedSize : (here.u32At 16).toNat = f.contents.length
  nameLength : (here.u16At 20).toNat = f.name.length

/-- A file behind its header begins here; it has no extra field. -/
structure BodyOf (here : Bytes) (f : StoredFile) : Prop where
  signature : here.u32At 0 = 0x04034B50
  version : here.u16At 4 = 10
  description : Described (here.drop 6) f
  extraLength : here.u16At 28 = 0
  name : here.slice 30 f.name.length = f.name
  contents : here.slice (30 + f.name.length) f.contents.length = f.contents

/-- An entry of the central directory begins here, for a file whose header
is at `origin`; it has neither extra field nor comment nor attributes. -/
structure EntryOf (here : Bytes) (origin : Nat) (f : StoredFile) :
    Prop where
  signature : here.u32At 0 = 0x02014B50
  creator : here.u16At 4 = 20
  version : here.u16At 6 = 10
  description : Described (here.drop 8) f
  extraLength : here.u16At 30 = 0
  commentLength : here.u16At 32 = 0
  disk : here.u16At 34 = 0
  internal : here.u16At 36 = 0
  external : here.u32At 38 = 0
  origin : (here.u32At 42).toNat = origin
  name : here.slice 46 f.name.length = f.name

/-- The end record of an archive of `count` files whose directory has a
given length and place. -/
structure EndOf (here : Bytes) (count length directory : Nat) : Prop where
  signature : here.u32At 0 = 0x06054B50
  disk : here.u16At 4 = 0
  directoryDisk : here.u16At 6 = 0
  countHere : (here.u16At 8).toNat = count
  count : (here.u16At 10).toNat = count
  length : (here.u32At 12).toNat = length
  directory : (here.u32At 16).toNat = directory
  commentLength : here.u16At 20 = 0

/-- How much files take, their headers included. -/
def bodiesLength : List StoredFile → Nat
  | [] => 0
  | f :: rest => 30 + f.name.length + f.contents.length + bodiesLength rest

/-- How much the central directory of files takes. -/
def directoryLength : List StoredFile → Nat
  | [] => 0
  | f :: rest => 46 + f.name.length + directoryLength rest

/-- The files of an archive behind their headers, the central directory and
the end record, without gaps. -/
structure IsArchive (out : Bytes) (files : List StoredFile) : Prop where
  bodies : ∀ (i : Nat) (hi : i < files.length),
    BodyOf (out.drop (bodiesLength (files.take i))) files[i]
  directory : ∀ (i : Nat) (hi : i < files.length),
    EntryOf
      (out.drop (bodiesLength files + directoryLength (files.take i)))
      (bodiesLength (files.take i)) files[i]
  ending : EndOf (out.drop (bodiesLength files + directoryLength files))
    files.length (directoryLength files) (bodiesLength files)
  length : out.length = bodiesLength files + directoryLength files + 22

-- ============================================================== written

/-- Lengths that the fields of headers can tell. -/
structure Countable (f : StoredFile) : Prop where
  name : f.name.length < 0x10000
  contents : f.contents.length < 0x100000000

section

variable {f : StoredFile} (rest : Bytes)

theorem fields_cons (width value : Nat) (values : List (Nat × Nat)) :
    fields ((width, value) :: values) ++ rest
      = Bytes.ofNat width value ++ (fields values ++ rest) := by
  unfold fields
  rw [List.flatMap_cons, List.append_assoc]

/-- Reading a field skips those before it, one by one; they are words or halves
of words. -/
theorem u32At_fields_word (value k : Nat) :
    (Bytes.ofNat 4 value ++ rest).u32At (k + 4) = rest.u32At k := by
  rw [Nat.add_comm, u32At_behind (length_ofNat 4 value)]

theorem u32At_fields_half (value k : Nat) :
    (Bytes.ofNat 2 value ++ rest).u32At (k + 2) = rest.u32At k := by
  rw [Nat.add_comm, u32At_behind (length_ofNat 2 value)]

theorem u16At_fields_word (value k : Nat) :
    (Bytes.ofNat 4 value ++ rest).u16At (k + 4) = rest.u16At k := by
  rw [Nat.add_comm, u16At_behind (length_ofNat 4 value)]

theorem u16At_fields_half (value k : Nat) :
    (Bytes.ofNat 2 value ++ rest).u16At (k + 2) = rest.u16At k := by
  rw [Nat.add_comm, u16At_behind (length_ofNat 2 value)]

/-- What both headers say of a file is read back from either. -/
theorem described (hf : Countable f) :
    Described (fields (description f) ++ rest) f := by
  have hname := UInt16.toNat_ofNat_of_lt' hf.name
  have hcontents := UInt32.toNat_ofNat_of_lt' hf.contents
  have hsum : UInt32.ofNat (Crc32.checksum f.contents).toNat
      = Crc32.checksum f.contents := UInt32.ofNat_toNat
  unfold description
  constructor
  all_goals
    simp only [fields_cons, u32At_fields_word, u32At_fields_half,
      u16At_fields_word, u16At_fields_half, u32At_ofNat, u16At_ofNat]
  case flags => rfl
  case method => rfl
  case time => rfl
  case date => rfl
  case checksum => exact hsum
  case packedSize => exact hcontents
  case unpackedSize => exact hcontents
  case nameLength => exact hname

/-- The header of a file stands before its name and contents. -/
theorem localRecord_append :
    localRecord f ++ rest = fields [(4, localSignature.toNat), (2, 10)]
      ++ (fields (description f) ++ (fields [(2, 0)]
        ++ (f.name ++ (f.contents ++ rest)))) := by
  unfold localRecord fields
  simp only [List.cons_append, List.flatMap_cons, List.flatMap_nil,
    List.flatMap_append, List.append_assoc, List.append_nil]

/-- A file is read back with all that its header says. -/
theorem bodyOf_localRecord (hf : Countable f) :
    BodyOf (localRecord f ++ rest) f := by
  have hextra : (fields [(2, 0)] ++ (f.name ++ (f.contents ++ rest))).u16At 0
      = 0 := by
    simp only [fields_cons, u16At_ofNat]
    rfl
  rw [localRecord_append]
  refine ⟨?_, ?_, ?_, ?_, ?_, ?_⟩
  · simp only [fields_cons, u32At_ofNat]
    rfl
  · simp only [fields_cons, u16At_fields_word, u16At_ofNat]
    rfl
  · rw [drop_behind (n := 6) rfl _ 0]
    exact described _ hf
  · rw [u16At_behind (n := 6) rfl _ 22, u16At_behind (n := 22) rfl _ 0]
    exact hextra
  · rw [slice_behind (n := 6) rfl _ 24, slice_behind (n := 22) rfl _ 2,
      slice_behind (n := 2) rfl _ 0]
    exact slice_head rfl _
  · rw [show 30 + f.name.length = 6 + (22 + (2 + f.name.length)) by omega,
      slice_behind (n := 6) rfl, slice_behind (n := 22) rfl,
      slice_behind (n := 2) rfl]
    exact slice_middle f.name f.contents rest

/-- An entry of the directory says more of a file, and where it is. -/
theorem centralRecord_append (origin : Nat) :
    centralRecord origin f ++ rest
      = fields [(4, centralSignature.toNat), (2, 20), (2, 10)]
        ++ (fields (description f)
          ++ (fields [(2, 0), (2, 0), (2, 0), (2, 0), (4, 0), (4, origin)]
            ++ (f.name ++ rest))) := by
  unfold centralRecord fields
  simp only [List.cons_append, List.flatMap_cons, List.flatMap_nil,
    List.flatMap_append, List.append_assoc, List.append_nil]

/-- An entry is read back, if the place of its file can be written in a word. -/
theorem entryOf_centralRecord {origin : Nat} (hf : Countable f)
    (horigin : origin < 0x100000000) :
    EntryOf (centralRecord origin f ++ rest) origin f := by
  rw [centralRecord_append]
  refine ⟨?_, ?_, ?_, ?_, ?_, ?_, ?_, ?_, ?_, ?_, ?_⟩
  · simp only [fields_cons, u32At_ofNat]
    rfl
  · simp only [fields_cons, u16At_fields_word, u16At_ofNat]
    rfl
  · simp only [fields_cons, u16At_fields_word, u16At_fields_half,
      u16At_ofNat]
    rfl
  · rw [drop_behind (n := 8) rfl _ 0]
    exact described _ hf
  -- what follows the description
  · rw [u16At_behind (n := 8) rfl _ 22, u16At_behind (n := 22) rfl _ 0]
    simp only [fields_cons, u16At_ofNat]
    rfl
  · rw [u16At_behind (n := 8) rfl _ 24, u16At_behind (n := 22) rfl _ 2]
    simp only [fields_cons, u16At_fields_half, u16At_ofNat]
    rfl
  · rw [u16At_behind (n := 8) rfl _ 26, u16At_behind (n := 22) rfl _ 4]
    simp only [fields_cons, u16At_fields_half, u16At_ofNat]
    rfl
  · rw [u16At_behind (n := 8) rfl _ 28, u16At_behind (n := 22) rfl _ 6]
    simp only [fields_cons, u16At_fields_half, u16At_ofNat]
    rfl
  · rw [u32At_behind (n := 8) rfl _ 30, u32At_behind (n := 22) rfl _ 8]
    simp only [fields_cons, u32At_fields_half, u32At_ofNat]
    rfl
  · rw [u32At_behind (n := 8) rfl _ 34, u32At_behind (n := 22) rfl _ 12]
    simp only [fields_cons, u32At_fields_half, u32At_fields_word, u32At_ofNat]
    exact UInt32.toNat_ofNat_of_lt' horigin
  · rw [slice_behind (n := 8) rfl _ 38, slice_behind (n := 22) rfl _ 16,
      slice_behind (n := 16) rfl _ 0]
    exact slice_head rfl _

/-- The record at the end is read back, if its counts fit into their fields. -/
theorem endOf_endRecord {count length directory : Nat}
    (hcount : count < 0x10000) (hlength : length < 0x100000000)
    (hdirectory : directory < 0x100000000) :
    EndOf (endRecord count length directory) count length directory := by
  have hnat := UInt16.toNat_ofNat_of_lt' hcount
  rw [← List.append_nil (endRecord count length directory)]
  unfold endRecord
  constructor
  all_goals
    simp only [fields_cons, u32At_fields_word, u32At_fields_half,
      u16At_fields_word, u16At_fields_half, u32At_ofNat, u16At_ofNat]
  case signature => rfl
  case disk => rfl
  case directoryDisk => rfl
  case countHere => exact hnat
  case count => exact hnat
  case length => exact UInt32.toNat_ofNat_of_lt' hlength
  case directory => exact UInt32.toNat_ofNat_of_lt' hdirectory
  case commentLength => rfl

end

-- ========================================================== the archive

/-- A file takes thirty bytes besides its name and contents. -/
theorem length_localRecord (f : StoredFile) :
    (localRecord f).length = 30 + f.name.length + f.contents.length := by
  unfold localRecord
  rw [List.length_append, List.length_append]
  rfl

/-- An entry takes 46 bytes besides the name. -/
theorem length_centralRecord (origin : Nat) (f : StoredFile) :
    (centralRecord origin f).length = 46 + f.name.length := by
  unfold centralRecord
  rw [List.length_append]
  rfl

/-- Together, the files take the space that was counted for them. -/
theorem length_bodies (files : List StoredFile) :
    (files.flatMap localRecord).length = bodiesLength files := by
  induction files with
  | nil => rfl
  | cons f rest ih =>
      rw [List.flatMap_cons, List.length_append, ih, length_localRecord]
      rfl

/-- Together, the entries take the space that was counted for them, wherever the
files are. -/
theorem length_centralRecords (files : List StoredFile) :
    ∀ origin, (centralRecords origin files).length
      = directoryLength files := by
  induction files with
  | nil => exact fun _ => rfl
  | cons f rest ih =>
      intro origin
      rw [centralRecords, List.length_append, ih, length_centralRecord]
      rfl

/-- The bodies of files, cut before a file. -/
theorem drop_bodies (files : List StoredFile) (rest : Bytes) :
    ∀ {i : Nat} (hi : i < files.length), ∃ after,
      (files.flatMap localRecord ++ rest).drop (bodiesLength (files.take i))
        = localRecord files[i] ++ after := by
  induction files with
  | nil => intro i hi; cases hi
  | cons f files ih =>
      intro i hi
      rw [List.flatMap_cons, List.append_assoc]
      cases i with
      | zero => exact ⟨_, rfl⟩
      | succ i =>
          obtain ⟨after, hafter⟩ := ih (Nat.lt_of_succ_lt_succ hi)
          refine ⟨after, ?_⟩
          rw [List.take_succ_cons, bodiesLength, ← length_localRecord,
            ← List.drop_drop, List.drop_left]
          exact hafter

/-- The central directory of files that begin at an origin, cut before an
entry. -/
theorem drop_centralRecords (files : List StoredFile) (rest : Bytes) :
    ∀ (origin : Nat) {i : Nat} (hi : i < files.length), ∃ after,
      (centralRecords origin files ++ rest).drop
          (directoryLength (files.take i))
        = centralRecord (origin + bodiesLength (files.take i)) files[i]
          ++ after := by
  induction files with
  | nil => intro origin i hi; cases hi
  | cons f files ih =>
      intro origin i hi
      rw [centralRecords, List.append_assoc]
      cases i with
      | zero => exact ⟨_, rfl⟩
      | succ i =>
          obtain ⟨after, hafter⟩ := ih _ (Nat.lt_of_succ_lt_succ hi)
          refine ⟨after, ?_⟩
          rw [List.take_succ_cons, directoryLength, bodiesLength,
            ← length_centralRecord origin, ← List.drop_drop, List.drop_left,
            hafter]
          unfold localSize
          rw [← Nat.add_assoc origin, ← Nat.add_assoc origin,
            ← Nat.add_assoc origin]
          rfl

/-- No file is longer than all of them. -/
theorem contents_le_bodies {files : List StoredFile} {f : StoredFile}
    (hf : f ∈ files) :
    f.contents.length ≤ bodiesLength files := by
  induction files with
  | nil => cases hf
  | cons first rest ih =>
      rw [bodiesLength]
      rcases List.mem_cons.mp hf with rfl | hf
      · omega
      · exact Nat.le_trans (ih hf) (Nat.le_add_left _ _)

theorem bodiesLength_take_le (files : List StoredFile) :
    ∀ i, bodiesLength (files.take i) ≤ bodiesLength files := by
  induction files with
  | nil =>
      exact fun i => Nat.le_of_eq (congrArg bodiesLength List.take_nil)
  | cons f rest ih =>
      intro i
      cases i with
      | zero => exact Nat.zero_le _
      | succ i => exact Nat.add_le_add_left (ih i) _

/-- The files, the directory and the end record, each with the length that
the end record gives. -/
theorem archive_eq (files : List StoredFile) :
    archive files = files.flatMap localRecord
      ++ (centralRecords 0 files ++ endRecord files.length
        (directoryLength files) (bodiesLength files)) := by
  unfold archive
  dsimp only
  rw [length_bodies, length_centralRecords, List.append_assoc]

/-- An archive has files, entries and the record at its end. -/
theorem length_archive (files : List StoredFile) :
    (archive files).length
      = bodiesLength files + directoryLength files + 22 := by
  rw [archive_eq, List.length_append, List.length_append, length_bodies,
    length_centralRecords, Nat.add_assoc]
  rfl

-- What an archive holds is no longer than the archive.
theorem countable_of_mem {files : List StoredFile}
    (hnames : ∀ f ∈ files, f.name.length < 0x10000)
    (hshort : (archive files).length < 0x100000000) :
    ∀ f ∈ files, Countable f := by
  intro f hf
  have hle := contents_le_bodies hf
  rw [length_archive] at hshort
  exact ⟨hnames f hf, by omega⟩

/-- An archive that 32 bits can measure is one to its reader. -/
theorem isArchive_archive {files : List StoredFile}
    (hcount : files.length < 0x10000)
    (hnames : ∀ f ∈ files, f.name.length < 0x10000)
    (hshort : (archive files).length < 0x100000000) :
    IsArchive (archive files) files := by
  have harchive := archive_eq files
  have hlength := length_archive files
  have hcountable := countable_of_mem hnames hshort
  refine ⟨fun i hi => ?_, fun i hi => ?_, ?_, hlength⟩
  · obtain ⟨after, hafter⟩ := drop_bodies files (centralRecords 0 files
      ++ endRecord files.length (directoryLength files)
        (bodiesLength files)) hi
    rw [harchive, hafter]
    exact bodyOf_localRecord after (hcountable _ (List.getElem_mem hi))
  · have horigin := bodiesLength_take_le files i
    obtain ⟨after, hafter⟩ := drop_centralRecords files
      (endRecord files.length (directoryLength files) (bodiesLength files))
      0 hi
    rw [harchive, drop_behind (length_bodies files), hafter, Nat.zero_add]
    exact entryOf_centralRecord after (hcountable _ (List.getElem_mem hi))
      (by omega)
  · rw [harchive, drop_behind (length_bodies files),
      List.drop_left' (length_centralRecords files 0)]
    exact endOf_endRecord hcount (by omega) (by omega)

end GameArchive.Map.Pak
