/-
Archives whose headers measure what is stored.

If both sizes of every header are the length of what is stored, each file is
found behind the one before it, whatever the files hold. What a file is
taken for is another matter: its first bytes decide, and they are looked
for in the file and all that follows it. A few bytes that are no frame of
their own can then be the beginning of one that goes on in the next header,
the directory or the end record.

So a file is decoded from what is stored and what follows, and the run over
all files is these decodings one by one; this holds of every file and every
neighbour, and the theorem about short files is read off it.

Main statements: `repack_measured`, `repack_shortFile`.
-/
import GameArchive.Proofs.Map.Pak.Repacking
import GameArchive.Proofs.Reported

namespace GameArchive.Map.Pak

open Bytes

-- ============================================================== one file

namespace LocalFile

/-- Both sizes are the length of what is stored. -/
structure Measured (f : LocalFile) : Prop where
  packed : f.packedSize.toNat = f.stored.length
  unpacked : f.unpackedSize.toNat = f.stored.length

/-- What a file is taken to hold, if these bytes follow it: a frame may go
on in them. -/
def taken (f : LocalFile) (after : Bytes) : Except Error Bytes :=
  if Lzma.isFrame (f.stored ++ after) then
    (Lzma.decompress (f.stored ++ after)).mapError .decode
  else .ok f.stored

/-- What a file is decoded to, if these bytes follow it. -/
def decode (f : LocalFile) (after : Bytes) : Except Error StoredFile := do
  let inner ← f.taken after
  let contents ← unpackTexture inner
  return ⟨f.name, contents⟩

variable {f : LocalFile} {after : Bytes}

/-- Where the header says how far a file goes, its contents are taken from there
and the reader goes on behind them. -/
theorem readContents_measured (hf : f.Measured) (total offset : Nat) :
    readContents total offset f.packedSize f.unpackedSize (f.stored ++ after)
      = (f.taken after).map (·, f.stored.length) := by
  unfold readContents taken
  rw [hf.packed, hf.unpacked]
  by_cases hframe : Lzma.isFrame (f.stored ++ after) = true
  · rw [if_pos hframe, if_pos hframe]
    cases Lzma.decompress (f.stored ++ after) with
    | ok inner => rfl
    | error cause => rfl
  · rw [if_neg hframe, if_neg hframe,
      if_neg (by rw [List.length_append]; omega), List.take_left]
    rfl

/-- The next file is looked for behind what is stored, even if this one was
taken for a frame that ends elsewhere. -/
theorem readFile_measured (hf : f.Measured) (before : Bytes) (index : Nat) :
    readFile (before ++ (f.toBytes ++ after)) index before.length
      = (f.decode after).map (·, before.length + f.toBytes.length) := by
  rw [f.readFile_toBytes after before index, readContents_measured hf,
    f.length_toBytes, ← Nat.add_assoc]
  unfold decode
  cases f.taken after with
  | error e => rfl
  | ok inner =>
      show (unpackTexture inner >>= _)
        = Except.map _ (unpackTexture inner >>= _)
      cases unpackTexture inner with
      | error e => rfl
      | ok contents => rfl

/-- What is neither a frame nor a texture is its own contents. -/
theorem decode_plain (hframe : Lzma.isFrame (f.stored ++ after) = false)
    (htexture : Texture.isTexture f.stored = false) :
    f.decode after = .ok ⟨f.name, f.stored⟩ := by
  have htaken : f.taken after = .ok f.stored := by
    unfold taken
    rw [hframe, if_neg Bool.false_ne_true]
  unfold decode
  rw [htaken]
  simp only [bind, Except.bind, unpackTexture_plain htexture]
  rfl

/-- A frame is decompressed, and then a texture in it. -/
theorem decode_framed (hframe : Lzma.isFrame (f.stored ++ after) = true) :
    f.decode after = do
      let inner ← (Lzma.decompress (f.stored ++ after)).mapError .decode
      let contents ← unpackTexture inner
      return ⟨f.name, contents⟩ := by
  unfold decode taken
  rw [if_pos hframe]

end LocalFile

-- ========================================================= all the files

/-- Files behind each other, and the rest of an archive. -/
def bytesOf (files : List LocalFile) (rest : Bytes) : Bytes :=
  files.flatMap LocalFile.toBytes ++ rest

/-- What follows the file number `i`. -/
def following (files : List LocalFile) (rest : Bytes) (i : Nat) : Bytes :=
  bytesOf (files.drop (i + 1)) rest

theorem bytesOf_cons (f : LocalFile) (files : List LocalFile) (rest : Bytes) :
    bytesOf (f :: files) rest = f.toBytes ++ bytesOf files rest := by
  unfold bytesOf
  rw [List.flatMap_cons, List.append_assoc]

/-- What begins with a P still does so with files before it. -/
theorem head?_bytesOf (files : List LocalFile) {rest : Bytes}
    (hrest : rest.head? = some 0x50) :
    (bytesOf files rest).head? = some 0x50 :=
  head?_flatMap (fun _ _ => rfl) files hrest

/-- Decodes files one by one, each with all that follows it. -/
def decodeAll : List LocalFile → (rest : Bytes) → Except Error (List StoredFile)
  | [], _ => .ok []
  | f :: files, rest => do
    let file ← f.decode (bytesOf files rest)
    let plain ← decodeAll files rest
    return file :: plain

/-- Reading goes from file to file, and decodes each by what follows it. -/
theorem readFiles_measured {files : List LocalFile} (rest : Bytes)
    (hfiles : ∀ f ∈ files, f.Measured) :
    ∀ (before : Bytes) (index : Nat),
      readFiles (before ++ bytesOf files rest) files.length index
        before.length = decodeAll files rest := by
  induction files with
  | nil => exact fun _ _ => rfl
  | cons f files ih =>
      intro before index
      obtain ⟨hf, hfiles⟩ := List.forall_mem_cons.mp hfiles
      have hrest := ih hfiles (before ++ f.toBytes) (index + 1)
      rw [List.append_assoc, List.length_append] at hrest
      rw [bytesOf_cons, List.length_cons, readFiles,
        LocalFile.readFile_measured hf, decodeAll]
      cases f.decode (bytesOf files rest) with
      | error e => rfl
      | ok file =>
          simp only [bind, Except.bind, Except.map, hrest]

/-- If all are decoded, each of them is, and keeps its place. -/
theorem decodeAll_ok {rest : Bytes} {files : List LocalFile} :
    ∀ {plain : List StoredFile}, decodeAll files rest = .ok plain →
      plain.length = files.length
      ∧ ∀ {i : Nat} {f : LocalFile}, files[i]? = some f →
        ∃ file, plain[i]? = some file
          ∧ f.decode (following files rest i) = .ok file := by
  induction files with
  | nil =>
      intro plain hplain
      cases hplain
      exact ⟨rfl, fun hi => by cases hi⟩
  | cons first files ih =>
      intro plain hplain
      obtain ⟨file, hfile, hplain⟩ := Reported.except_bind_ok hplain
      obtain ⟨others, hothers, hplain⟩ := Reported.except_bind_ok hplain
      cases hplain
      obtain ⟨hlength, hlater⟩ := ih hothers
      refine ⟨congrArg (· + 1) hlength, ?_⟩
      intro i f hi
      cases i with
      | zero =>
          cases hi
          exact ⟨file, rfl, hfile⟩
      | succ i => exact hlater hi

/-- If they are not, it is for one of them. -/
theorem decodeAll_error {rest : Bytes} {e : Error} {files : List LocalFile}
    (h : decodeAll files rest = .error e) :
    ∃ (i : Nat) (f : LocalFile), files[i]? = some f
      ∧ f.decode (following files rest i) = .error e := by
  induction files with
  | nil => cases h
  | cons first files ih =>
      rw [decodeAll] at h
      cases hfirst : first.decode (bytesOf files rest) with
      | error cause =>
          rw [hfirst] at h
          cases h
          exact ⟨0, first, rfl, hfirst⟩
      | ok file =>
          rw [hfirst] at h
          cases hothers : decodeAll files rest with
          | error cause =>
              rw [hothers] at h
              cases h
              obtain ⟨i, f, hi, hf⟩ := ih hothers
              exact ⟨i + 1, f, hi, hf⟩
          | ok others =>
              rw [hothers] at h
              cases h

section

variable {files : List LocalFile} {rest : Bytes} {place : Nat}
  (hplace : findEndRecord (bytesOf files rest) = some place)
  (hcount : ((bytesOf files rest).u16At (place + 10)).toNat = files.length)
  (hfiles : ∀ f ∈ files, f.Measured)

include hplace hcount hfiles

/-- Files that are measured are all found, and repacked as they are
decoded. -/
theorem repack_measured :
    repack (bytesOf files rest)
      = ⟨[], (decodeAll files rest).map archive⟩ := by
  have hdata : ¬ (bytesOf files rest).isEmpty = true := by
    rw [List.isEmpty_iff]
    intro hnil
    rw [hnil] at hplace
    cases hplace
  have hread := readFiles_measured rest hfiles [] 0
  rw [List.nil_append, List.length_nil] at hread
  unfold repack
  rw [if_neg hdata, hplace]
  dsimp only
  rw [hcount, hread]
  cases decodeAll files rest with
  | error e => rfl
  | ok plain => rfl

end

-- =========================================================== short files

/-- An archive is repacked with this file at the place `i`, unless another
of its files cannot be decoded. -/
structure EmitsAt (files : List LocalFile) (rest : Bytes) (i : Nat)
    (file : StoredFile) : Prop where
  refused : ∀ e, (repack (bytesOf files rest)).outcome = .error e →
    ∃ (j : Nat) (f : LocalFile), j ≠ i ∧ files[j]? = some f
      ∧ f.decode (following files rest j) = .error e
  emitted : ∀ out, (repack (bytesOf files rest)).outcome = .ok out →
    ∃ plain, out = archive plain ∧ plain.length = files.length
      ∧ plain[i]? = some file

section

variable {files : List LocalFile} {rest : Bytes} {place i : Nat}
  {f : LocalFile}
  (hplace : findEndRecord (bytesOf files rest) = some place)
  (hcount : ((bytesOf files rest).u16At (place + 10)).toNat = files.length)
  (hfiles : ∀ f ∈ files, f.Measured) (hi : files[i]? = some f)

include hplace hcount hfiles hi

/-- A file that is decoded is emitted as what it is decoded to. -/
theorem emitsAt_of_decode {file : StoredFile}
    (hdecode : f.decode (following files rest i) = .ok file) :
    EmitsAt files rest i file := by
  have hrepack := repack_measured hplace hcount hfiles
  -- If another file is refused, nothing is emitted at all.
  constructor
  case refused =>
      intro e he
      rw [hrepack] at he
      cases hall : decodeAll files rest with
      | ok plain =>
          rw [hall] at he
          cases he
      | error cause =>
          rw [hall] at he
          cases he
          obtain ⟨j, g, hj, hg⟩ := decodeAll_error hall
          refine ⟨j, g, ?_, hj, hg⟩
          rintro rfl
          cases hi.symm.trans hj
          rw [hdecode] at hg
          cases hg
  case emitted =>
      intro out hout
      rw [hrepack] at hout
      cases hall : decodeAll files rest with
      | error cause =>
          rw [hall] at hout
          cases hout
      | ok plain =>
          rw [hall] at hout
          cases hout
          obtain ⟨hlength, hfile⟩ := decodeAll_ok hall
          obtain ⟨decoded, hplain, hdecoded⟩ := hfile hi
          rw [hdecode] at hdecoded
          cases hdecoded
          exact ⟨plain, rfl, hlength, hplain⟩

/-- One file that cannot be decoded refuses the archive. -/
theorem repack_refused {cause : Error}
    (hdecode : f.decode (following files rest i) = .error cause) :
    ∃ e, (repack (bytesOf files rest)).outcome = .error e := by
  rw [repack_measured hplace hcount hfiles]
  cases hall : decodeAll files rest with
  | error e => exact ⟨e, rfl⟩
  | ok plain =>
      obtain ⟨-, hfile⟩ := decodeAll_ok hall
      obtain ⟨file, -, hok⟩ := hfile hi
      rw [hdecode] at hok
      cases hok

end

/-- What is shorter than the header of a frame is no frame. -/
theorem not_isFrame_of_short {data : Bytes} (h : data.length < 17) :
    Lzma.isFrame data = false := by
  unfold Lzma.isFrame Lzma.FrameHeader.size
  rw [decide_eq_false (by omega), Bool.false_and]

/-- A file too short for a frame, and no texture, is emitted as it is
stored and is nothing that an archive is refused for, if what is stored and
what follows it are no frame either; where a P follows it, as in front of a
header or of the directory, this only asks that it does not begin with the
letters of a frame. If they are one, the file becomes what that frame holds,
or the archive is refused. -/
theorem repack_shortFile {files : List LocalFile} {rest : Bytes}
    {place i : Nat} {f : LocalFile}
    (hplace : findEndRecord (bytesOf files rest) = some place)
    (hcount : ((bytesOf files rest).u16At (place + 10)).toNat = files.length)
    (hfiles : ∀ f ∈ files, f.Measured) (hi : files[i]? = some f)
    (hshort : f.stored.length < 17)
    (htexture : Texture.isTexture f.stored = false) :
    Lzma.isFrame f.stored = false
      ∧ (Lzma.isFrame (f.stored ++ following files rest i) = false →
        EmitsAt files rest i ⟨f.name, f.stored⟩)
      ∧ ((following files rest i).head? = some 0x50 →
        f.stored.startsWith [0x4C, 0x5A, 0x4D, 0x41] = false →
        Lzma.isFrame (f.stored ++ following files rest i) = false)
      ∧ (Lzma.isFrame (f.stored ++ following files rest i) = true →
        (∀ inner contents,
          Lzma.decompress (f.stored ++ following files rest i) = .ok inner →
          unpackTexture inner = .ok contents →
          EmitsAt files rest i ⟨f.name, contents⟩)
        ∧ (∀ inner cause,
          Lzma.decompress (f.stored ++ following files rest i) = .ok inner →
          unpackTexture inner = .error cause →
          ∃ e, (repack (bytesOf files rest)).outcome = .error e)
        ∧ ∀ cause,
          Lzma.decompress (f.stored ++ following files rest i)
            = .error cause →
          ∃ e, (repack (bytesOf files rest)).outcome = .error e) := by
  refine ⟨not_isFrame_of_short hshort, ?_, ?_, ?_⟩
  · intro hframe
    exact emitsAt_of_decode hplace hcount hfiles hi
      (LocalFile.decode_plain hframe htexture)
  · intro hafter hletters
    exact not_isFrame_append hletters hafter
  · intro hframe
    -- All depends on what the supposed frame holds, if it holds anything.
    have hdecode := LocalFile.decode_framed hframe
    refine ⟨?_, ?_, ?_⟩
    · intro inner contents hinner hcontents
      rw [hinner] at hdecode
      change _ = (unpackTexture inner >>= _) at hdecode
      rw [hcontents] at hdecode
      exact emitsAt_of_decode hplace hcount hfiles hi hdecode
    · intro inner cause hinner hcontents
      rw [hinner] at hdecode
      change _ = (unpackTexture inner >>= _) at hdecode
      rw [hcontents] at hdecode
      exact repack_refused hplace hcount hfiles hi hdecode
    · intro cause hcause
      rw [hcause] at hdecode
      exact repack_refused hplace hcount hfiles hi hdecode

/-- A file whose header has an extra field of one byte. -/
def tagged (name : UInt8) (size : UInt32) (stored : Bytes) : LocalFile :=
  ⟨[name], zeros 14, size, size, [1], stored, (by decide : 1 < 0x10000),
    length_zeros 14, (by decide : 1 < 0x10000)⟩

/-- A file with one letter for its name is measured by its unpacked size. -/
theorem measured_tagged {name : UInt8} {size : UInt32} {stored : Bytes}
    (h : size.toNat = stored.length) : (tagged name size stored).Measured :=
  ⟨h, h⟩

/-- The end record of an archive of two files, behind no directory. -/
def endOfTwo : Bytes :=
  [0x50, 0x4B, 5, 6, 0, 0, 0, 0, 2, 0, 2, 0, 0, 0, 0, 0, 0, 0, 0, 0, 0, 0]

/-- A file of the letters LZM is kept beside one of a single letter. One of
all four letters is taken for a frame that the end record goes on with, and
its archive is refused. -/
theorem repack_shortFile_letters :
    let first := tagged 0x61 3 [0x4C, 0x5A, 0x4D]
    let second := tagged 0x62 1 [0x43]
    let lettered := tagged 0x62 4 [0x4C, 0x5A, 0x4D, 0x41]
    (findEndRecord (bytesOf [first, second] endOfTwo) = some 68
        ∧ ((bytesOf [first, second] endOfTwo).u16At 78).toNat = 2
        ∧ (∀ f ∈ [first, second], f.Measured)
        ∧ first.stored.length < 17
        ∧ Texture.isTexture first.stored = false
        ∧ EmitsAt [first, second] endOfTwo 0 ⟨[0x61], first.stored⟩
        ∧ (repack (bytesOf [first, second] endOfTwo)).outcome
          = .ok (archive [⟨[0x61], first.stored⟩, ⟨[0x62], [0x43]⟩]))
      ∧ ∃ e, (repack (bytesOf [first, lettered] endOfTwo)).outcome
          = .error e := by
  intro first second lettered
  have hkept : ∀ f ∈ [first, second], f.Measured :=
    List.forall_mem_cons.mpr ⟨measured_tagged rfl,
      List.forall_mem_singleton.mpr (measured_tagged rfl)⟩
  have hrefused : ∀ f ∈ [first, lettered], f.Measured :=
    List.forall_mem_cons.mpr ⟨measured_tagged rfl,
      List.forall_mem_singleton.mpr (measured_tagged rfl)⟩
  have hplace : findEndRecord (bytesOf [first, second] endOfTwo)
      = some 68 := by
    decide +kernel
  have hcount : ((bytesOf [first, second] endOfTwo).u16At 78).toNat = 2 := by
    decide +kernel
  have hlettered : findEndRecord (bytesOf [first, lettered] endOfTwo)
      = some 71 := by
    decide +kernel
  obtain ⟨-, hplain, hletters, -⟩ := repack_shortFile (i := 0) (f := first)
    hplace hcount hkept rfl (by decide) rfl
  obtain ⟨-, -, -, hframed⟩ := repack_shortFile (i := 1) (f := lettered)
    hlettered (by decide +kernel) hrefused rfl (by decide) rfl
  obtain ⟨-, -, hdamaged⟩ := hframed (by decide +kernel)
  obtain ⟨cause, hcause⟩ : ∃ cause, Lzma.decompress (lettered.stored
      ++ following [first, lettered] endOfTwo 1) = .error cause :=
    ⟨_, rfl⟩
  refine ⟨⟨hplace, hcount, hkept, by decide, rfl,
    hplain (hletters rfl rfl), ?_⟩, hdamaged cause hcause⟩
  rw [repack_measured hplace hcount hkept]
  rfl

end GameArchive.Map.Pak
