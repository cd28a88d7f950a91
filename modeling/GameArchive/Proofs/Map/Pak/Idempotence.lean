/-
Repacking what was repacked.

An archive is written in one form only, and that form is one its reader
knows: the end record is last, every header gives the length of what it
stores as both of its sizes, and behind every file there is a P. So an
archive of files that do not begin with the letters of a frame or of a
texture is read as these very files, and written as it was. Repacking ends
in such an archive, or finds no end record and leaves everything as it is.

Main statement: `repack_repack`.
-/
import GameArchive.Proofs.Map.Pak.Chain

namespace GameArchive.Map.Pak

open Bytes

-- ============================================================ what is read

/-- A name is no longer than what its header can count. -/
theorem readFile_ok {data : Bytes} {index offset next : Nat}
    {file : StoredFile} (h : readFile data index offset = .ok (file, next)) :
    file.name.length < 0x10000 := by
  simp only [readFile] at h
  split at h
  · cases h
  split at h
  · cases h
  split at h
  · cases h
  obtain ⟨_, -, h⟩ := Reported.except_bind_ok h
  obtain ⟨contents, -, h⟩ := Reported.except_bind_ok h
  cases h
  have hlt := (u16At (data.drop offset) 26).toNat_lt
  exact Nat.lt_of_le_of_lt (length_slice .. ▸ Nat.min_le_left ..) hlt

/-- Names that were read can be counted in half a word. -/
theorem readFiles_ok {data : Bytes} {count : Nat} :
    ∀ {index offset : Nat} {files : List StoredFile},
      readFiles data count index offset = .ok files →
      files.length = count ∧ ∀ f ∈ files, f.name.length < 0x10000 := by
  induction count with
  | zero =>
      intro index offset files h
      cases h
      exact ⟨rfl, List.forall_mem_nil _⟩
  | succ count ih =>
      intro index offset files h
      obtain ⟨⟨file, next⟩, hfile, h⟩ := Reported.except_bind_ok h
      obtain ⟨others, hothers, h⟩ := Reported.except_bind_ok h
      cases h
      obtain ⟨hlength, hnames⟩ := ih hothers
      exact ⟨congrArg (· + 1) hlength,
        List.forall_mem_cons.mpr ⟨readFile_ok hfile, hnames⟩⟩

/-- The files that repacking writes; none if there is no end record to count
them. -/
def emitted (data : Bytes) : List StoredFile :=
  match findEndRecord data with
  | none => []
  | some place =>
    match readFiles data (data.u16At (place + 10)).toNat 0 0 with
    | .ok files => files
    | .error _ => []

/-- Repacking copies, with a warning, or writes the archive of what it has
read. -/
theorem repack_ok {data out : Bytes} (h : (repack data).outcome = .ok out) :
    (findEndRecord data = none ∧ out = data)
      ∨ (findEndRecord data ≠ none ∧ repack data = ⟨[], .ok out⟩
        ∧ out = archive (emitted data) ∧ (emitted data).length < 0x10000
        ∧ ∀ f ∈ emitted data, f.name.length < 0x10000) := by
  unfold repack at h ⊢
  by_cases hempty : data.isEmpty = true
  · rw [if_pos hempty] at h
    cases h
    rw [List.isEmpty_iff.mp hempty]
    exact .inl ⟨rfl, rfl⟩
  · rw [if_neg hempty] at h ⊢
    unfold emitted
    cases hplace : findEndRecord data with
    | none =>
        rw [hplace] at h
        cases h
        exact .inl ⟨rfl, rfl⟩
    | some place =>
        rw [hplace] at h
        dsimp only at h ⊢
        obtain ⟨files, hfiles, h⟩ := Reported.bind_ok h
        change readFiles data _ 0 0 = .ok files at hfiles
        cases h
        obtain ⟨hlength, hnames⟩ := readFiles_ok hfiles
        rw [hfiles]
        exact .inr ⟨Option.some_ne_none _, rfl, rfl,
          hlength ▸ UInt16.toNat_lt _, hnames⟩

-- ========================================================= what is written

/-- A file whose contents begin as neither a frame nor a texture. -/
structure Unlettered (f : StoredFile) : Prop where
  frame : f.contents.startsWith [0x4C, 0x5A, 0x4D, 0x41] = false
  texture : Texture.isTexture f.contents = false

/-- A stored file with its header as a reader finds it. -/
def LocalFile.ofStored (f : StoredFile) (hf : Countable f) : LocalFile :=
  ⟨f.name, fields [(2, 10), (2, 0), (2, 0), (2, 0), (2, 0),
      (4, (Crc32.checksum f.contents).toNat)],
    UInt32.ofNat f.contents.length, UInt32.ofNat f.contents.length, [],
    f.contents, hf.name, rfl, Nat.zero_lt_succ _⟩

section

variable {f : StoredFile} (hf : Countable f)

/-- A file that was written by a repack has the bytes of a vendor file. -/
theorem LocalFile.toBytes_ofStored :
    (LocalFile.ofStored f hf).toBytes = localRecord f := by
  have hsize : ofUInt32 (UInt32.ofNat f.contents.length)
      = Bytes.ofNat 4 f.contents.length :=
    congrArg (Bytes.ofNat 4) (UInt32.toNat_ofNat_of_lt' hf.contents)
  unfold LocalFile.toBytes LocalFile.ofStored
  dsimp only
  rw [hsize]
  unfold localRecord description fields
  simp only [List.cons_append, List.flatMap_cons, List.flatMap_nil,
    List.nil_append, List.append_assoc, List.append_nil]
  rfl

/-- The header of a file that was written by a repack says how far it goes. -/
theorem LocalFile.measured_ofStored : (LocalFile.ofStored f hf).Measured :=
  have hsize := UInt32.toNat_ofNat_of_lt' hf.contents
  ⟨hsize, hsize⟩

/-- Without the letters of a frame, it is read as it was written. -/
theorem LocalFile.decode_ofStored (hplain : Unlettered f) {after : Bytes}
    (hafter : after.head? = some 0x50) :
    (LocalFile.ofStored f hf).decode after = .ok f :=
  LocalFile.decode_plain (not_isFrame_append hplain.frame hafter)
    hplain.texture

end

/-- Stored files are files of a reader's chain, each decoded to itself. -/
theorem exists_chain {files : List StoredFile}
    (hcountable : ∀ f ∈ files, Countable f)
    (hplain : ∀ f ∈ files, Unlettered f) {rest : Bytes}
    (hrest : rest.head? = some 0x50) :
    ∃ chain : List LocalFile, chain.length = files.length
      ∧ (∀ g ∈ chain, g.Measured)
      ∧ bytesOf chain rest = files.flatMap localRecord ++ rest
      ∧ decodeAll chain rest = .ok files := by
  induction files with
  | nil => exact ⟨[], rfl, List.forall_mem_nil _, rfl, rfl⟩
  | cons f files ih =>
      obtain ⟨hf, hcountable⟩ := List.forall_mem_cons.mp hcountable
      obtain ⟨hfirst, hplain⟩ := List.forall_mem_cons.mp hplain
      obtain ⟨chain, hlength, hmeasured, hbytes, hdecode⟩ :=
        ih hcountable hplain
      refine ⟨.ofStored f hf :: chain, congrArg (· + 1) hlength,
        List.forall_mem_cons.mpr
          ⟨LocalFile.measured_ofStored hf, hmeasured⟩, ?_, ?_⟩
      · rw [bytesOf_cons, hbytes, LocalFile.toBytes_ofStored,
          List.flatMap_cons, List.append_assoc]
      · rw [decodeAll, LocalFile.decode_ofStored hf hfirst
          (head?_bytesOf chain hrest), hdecode]
        rfl

/-- An archive is its own repacking. -/
theorem repack_archive {files : List StoredFile}
    (hcount : files.length < 0x10000)
    (hnames : ∀ f ∈ files, f.name.length < 0x10000)
    (hshort : (archive files).length < 0x100000000)
    (hplain : ∀ f ∈ files, Unlettered f) :
    repack (archive files) = ⟨[], .ok (archive files)⟩ := by
  let record := endRecord files.length (directoryLength files)
    (bodiesLength files)
  have hrecord : isEndRecord record = true := rfl
  have hfound : findEndRecord (files.flatMap localRecord
      ++ centralRecords 0 files ++ record)
        = some (files.flatMap localRecord ++ centralRecords 0 files).length :=
    findEndRecord_append hrecord rfl
  have hcounted : (u16At (files.flatMap localRecord
      ++ centralRecords 0 files ++ record) ((files.flatMap localRecord
        ++ centralRecords 0 files).length + 10)).toNat = files.length := by
    rw [u16At_behind rfl]
    rw [length_archive] at hshort
    exact (endOf_endRecord hcount (by omega) (by omega)).count
  have hhead : (centralRecords 0 files ++ record).head? = some 0x50 := by
    cases files with
    | nil => rfl
    | cons f files => rfl
  obtain ⟨chain, hlength, hmeasured, hbytes, hdecode⟩ := exists_chain
    (countable_of_mem hnames hshort) hplain hhead
  rw [List.append_assoc, ← hbytes] at hfound hcounted
  rw [← hlength] at hcounted
  have hrepack := repack_measured hfound hcounted hmeasured
  rw [hdecode, hbytes, ← archive_eq] at hrepack
  exact hrepack

-- ============================================================== both ways

/-- Repacking its own result changes nothing, not even the warnings. If
there was an end record, the result has to be one that 32 bits can measure,
of files that do not begin with the letters of a frame or of a texture. -/
theorem repack_repack {data out : Bytes}
    (h : (repack data).outcome = .ok out)
    (hout : findEndRecord data ≠ none →
      out.length < 0x100000000 ∧ ∀ f ∈ emitted data, Unlettered f) :
    repack out = ⟨(repack data).warnings, .ok out⟩
      ∧ (findEndRecord data = none → out = data)
      ∧ (findEndRecord data ≠ none → out = archive (emitted data)) := by
  -- Without an end record data are copied; otherwise they are an archive now.
  rcases repack_ok h with ⟨hnone, rfl⟩ | ⟨hfound, hrepack, harchive, hcount,
    hnames⟩
  · refine ⟨?_, fun _ => rfl, fun hfound => absurd hnone hfound⟩
    rw [← h]
  · obtain ⟨hshort, hplain⟩ := hout hfound
    refine ⟨?_, fun hnone => absurd hnone hfound, fun _ => harchive⟩
    rw [hrepack]
    rw [harchive] at hshort ⊢
    exact repack_archive hcount hnames hshort hplain

/-- A texture of one byte and a file of the letters LZM, repacked twice: the
first time the texture is decoded and the extra fields go. -/
theorem repack_repack_texture :
    let texture : Bytes := [0x43, 0x4F, 0x32, 1, 1, 0, 0, 0, 32, 0, 0, 0,
      1, 0, 0, 0, 9]
    let data := bytesOf [tagged 0x61 17 texture,
      tagged 0x62 3 [0x4C, 0x5A, 0x4D]] endOfTwo
    let out := archive [⟨[0x61], [9]⟩, ⟨[0x62], [0x4C, 0x5A, 0x4D]⟩]
    (repack data).outcome = .ok out
      ∧ findEndRecord data = some 84
      ∧ (findEndRecord data ≠ none →
        out.length < 0x100000000 ∧ ∀ f ∈ emitted data, Unlettered f)
      ∧ repack out = ⟨(repack data).warnings, .ok out⟩
      ∧ out = archive (emitted data) := by
  intro texture data out
  have hfiles : emitted data
      = [⟨[0x61], [9]⟩, ⟨[0x62], [0x4C, 0x5A, 0x4D]⟩] := by
    decide +kernel
  have hplace : findEndRecord data = some 84 := by decide +kernel
  have hfound : findEndRecord data ≠ none :=
    hplace ▸ Option.some_ne_none 84
  have hoption : (repack data).outcome.toOption = some out := by
    decide +kernel
  have hrepack : (repack data).outcome = .ok out := by
    cases hrun : (repack data).outcome with
    | error e =>
        rw [hrun] at hoption
        cases hoption
    | ok result =>
        rw [hrun] at hoption
        exact congrArg Except.ok (Option.some.inj hoption)
  have hout : findEndRecord data ≠ none →
      out.length < 0x100000000 ∧ ∀ f ∈ emitted data, Unlettered f := by
    intro _
    rw [hfiles]
    exact ⟨by decide +kernel, List.forall_mem_cons.mpr
      ⟨⟨rfl, rfl⟩, List.forall_mem_singleton.mpr ⟨rfl, rfl⟩⟩⟩
  obtain ⟨htwice, -, harchive⟩ := repack_repack hrepack hout
  exact ⟨hrepack, hplace, hout, htwice, harchive hfound⟩

end GameArchive.Map.Pak
