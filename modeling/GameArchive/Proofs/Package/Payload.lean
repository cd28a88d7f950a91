/-
What is read of an entry.

Offset and sizes of an entry are whatever its record says, and the file is
as long as it is. Of the bytes that the record asks for, those that are in
the file count: a few of them may be missing, and what is read is cut to
the declared size, with a warning if it does not reach so far. Strides and
blocks end where the bytes do.

The beginning of the contents is read by itself to find out what they are.
Its length is a number of whole blocks, unless the contents end before; so
it is the beginning of what is read of all contents, and these are what is
told of.

Main statements: `readEntry_exact`, `peek_exact`.
-/
import GameArchive.Proofs.Package.Deciphering
import GameArchive.Proofs.Package.Opening
import GameArchive.Proofs.Package.Reader

namespace GameArchive.Package

open Bytes

namespace Container

-- ================================================================ in the file

/-- How many of the bytes that an entry asks for are in the file. -/
def storedSize (file : Bytes) (e : Entry) : Nat :=
  min e.packedSize.toNat (file.length - e.offset)

theorem length_stored (file : Bytes) (e : Entry) :
    (file.slice e.offset (storedSize file e)).length = storedSize file e := by
  rw [length_slice]
  exact Nat.min_eq_left (Nat.min_le_right ..)

section

variable {file front stored rest : Bytes} {e : Entry}
  (hfile : file = front ++ (stored ++ rest))
  (hoffset : e.offset = front.length)
  (hsize : min e.packedSize.toNat (stored ++ rest).length = stored.length)

include hfile hoffset hsize

theorem storedSize_eq : storedSize file e = stored.length := by
  unfold storedSize
  rw [hfile, hoffset, List.length_append, Nat.add_sub_cancel_left, hsize]

/-- What is in the file is cut out. -/
theorem slice_stored :
    file.slice e.offset (storedSize file e) = stored := by
  rw [storedSize_eq hfile hoffset hsize, hfile, hoffset]
  exact slice_middle front stored rest

end

/-- Stored contents of an entry and the same in the clear: as they are, or
decrypted with the provider's secret and the file name of the entry. -/
def InClear (provider : Provider) (e : Entry) (stored clear : Bytes) : Prop :=
  if e.isEncrypted then
    Deciphers (Key.ofSecret provider.dataSecret e.fileName) stored clear
  else clear = stored

/-- Stored contents of an entry, in the clear. -/
def clearOf (c : Container) (e : Entry) (stored : Bytes) : Bytes :=
  if e.isEncrypted then decipherStrides (c.payloadKey e) stored else stored

section

variable (c : Container) (e : Entry)

/-- What a container takes for the clear text is the clear text. -/
theorem inClear_clearOf (stored : Bytes) :
    InClear c.provider e stored (c.clearOf e stored) := by
  unfold InClear clearOf
  by_cases hencrypted : e.isEncrypted = true
  · rw [if_pos hencrypted, if_pos hencrypted]
    exact deciphers_decipherStrides (c.payloadKey e) stored
  · rw [if_neg hencrypted, if_neg hencrypted]

@[simp] theorem length_clearOf (stored : Bytes) :
    (c.clearOf e stored).length = stored.length := by
  unfold clearOf
  split
  · exact length_decipherStrides ..
  · rfl

/-- Of the first bytes, whole blocks are decrypted as they are among all,
and the rest is left. -/
theorem clearOf_cut (hencrypted : e.isEncrypted = true) {stored : Bytes}
    {n : Nat} (hn : n ≤ stored.length) :
    c.clearOf e (stored.take n)
      = (c.clearOf e stored).take (n / 16 * 16)
        ++ (stored.take n).drop (n / 16 * 16) := by
  unfold clearOf
  rw [if_pos hencrypted, if_pos hencrypted]
  exact decipherStrides_take _ hn

/-- Whole blocks, or all there is, are decrypted without the rest. -/
theorem clearOf_take {n : Nat} (hn : n % 16 = 0) (stored : Bytes) :
    c.clearOf e (stored.take n) = (c.clearOf e stored).take n := by
  by_cases hencrypted : e.isEncrypted = true
  · rcases Nat.le_total stored.length n with hshort | hlong
    · rw [List.take_of_length_le hshort, List.take_of_length_le]
      rwa [length_clearOf]
    · have hwhole : n / 16 * 16 = n := by omega
      rw [clearOf_cut c e hencrypted hlong, hwhole, List.drop_of_length_le,
        List.append_nil]
      exact List.length_take_le ..
  · unfold clearOf
    rw [if_neg hencrypted, if_neg hencrypted]

end

-- ================================================================= reading

section

variable {c : Container} (hopened : c.openedSize = c.file.length) (e : Entry)

include hopened

/-- What is read of contents, of which no more is asked for than there
should be. -/
theorem readPayload_eq {length : Nat} (hlength : length ≤ e.packedSize.toNat) :
    c.readPayload e length
      = if 16 < length - min length (c.file.length - e.offset) then
          .error (.missingPayload e.path e.offset length
            (c.file.length - e.offset))
        else .ok (c.clearOf e (c.file.slice e.offset
          (min length (c.file.length - e.offset)))) := by
  have hzero : e.packedSize = 0 ↔ e.packedSize.toNat = 0 :=
    UInt32.toNat_inj.symm
  unfold readPayload
  by_cases hnone : length = 0
  · have hempty : c.clearOf e (c.file.slice e.offset 0) = [] :=
      List.length_eq_zero_iff.mp (length_clearOf c e [])
    rw [if_pos (by simp [hnone]), if_neg (by omega), hnone, Nat.zero_min,
      hempty]
  rw [if_neg (by simp [hzero]; omega), hopened]
  dsimp only
  have hread : ¬ (c.file.slice e.offset
      (min length (c.file.length - e.offset))).length
        < min length (c.file.length - e.offset) := by
    rw [length_slice]
    omega
  rw [if_neg hread]
  unfold slack
  split
  · rfl
  · unfold clearOf
    split <;> rfl

/-- What is read of an entry. -/
theorem readEntry_eq :
    c.readEntry e
      = if 16 < e.packedSize.toNat - storedSize c.file e then
          ⟨[], .error (.missingPayload e.path e.offset e.packedSize.toNat
            (c.file.length - e.offset))⟩
        else
          ⟨if storedSize c.file e < e.unpackedSize.toNat then
              [.shortPayload e.path (storedSize c.file e)
                e.unpackedSize.toNat]
            else [],
            .ok ((c.clearOf e
              (c.file.slice e.offset (storedSize c.file e))).take
                e.unpackedSize.toNat)⟩ := by
  have hread := readPayload_eq hopened e (Nat.le_refl e.packedSize.toNat)
  change _ = if 16 < e.packedSize.toNat - storedSize c.file e then _
    else Except.ok (c.clearOf e (c.file.slice e.offset (storedSize c.file e)))
    at hread
  unfold readEntry
  rw [hread]
  by_cases hmissing : 16 < e.packedSize.toNat - storedSize c.file e
  · rw [if_pos hmissing, if_pos hmissing]
    rfl
  rw [if_neg hmissing, if_neg hmissing, Reported.ofExcept_ok, pure_bind]
  dsimp only
  rw [length_clearOf, length_stored]
  by_cases hshort : storedSize c.file e < e.unpackedSize.toNat
  · rw [if_pos hshort, if_pos hshort]
    exact Reported.warn_pure _ _
  · rw [if_neg hshort, if_neg hshort]
    rfl

end

-- =============================================================== exactness

/-- What the result of reading an entry says of entry and file. -/
structure ReadsExactly (c : Container) (file : Bytes) (e : Entry)
    (result : Step Bytes) : Prop where
  error_iff : (∃ err, result.outcome = .error err)
    ↔ 16 < e.packedSize.toNat - storedSize file e
  error_eq : ∀ err, result.outcome = .error err →
    err = .missingPayload e.path e.offset e.packedSize.toNat
        (file.length - e.offset)
      ∧ err.isMalformedContainer = true ∧ result.warnings = []
  ok_eq : ∀ data, result.outcome = .ok data →
    data.length = min (storedSize file e) e.unpackedSize.toNat
      ∧ (∃ clear,
        InClear c.provider e (file.slice e.offset (storedSize file e)) clear
          ∧ data = clear.take data.length)
      ∧ result.warnings
        = if storedSize file e < e.unpackedSize.toNat then
            [.shortPayload e.path (storedSize file e) e.unpackedSize.toNat]
          else []

section

variable {c : Container} {file : Bytes} {e : Entry}

/-- If more than sixteen bytes are missing, reading fails and says so. -/
theorem readsExactly_missing
    (hmissing : 16 < e.packedSize.toNat - storedSize file e) :
    ReadsExactly c file e ⟨[], .error (.missingPayload e.path e.offset
      e.packedSize.toNat (file.length - e.offset))⟩ where
  error_iff := ⟨fun _ => hmissing, fun _ => ⟨_, rfl⟩⟩
  error_eq err herr := by
    cases herr
    exact ⟨rfl, rfl, rfl⟩
  ok_eq data hdata := by cases hdata

/-- If sixteen bytes or fewer are missing, what is there is returned, up to the
size of the contents, with a warning if it is less. -/
theorem readsExactly_there
    (hthere : e.packedSize.toNat - storedSize file e ≤ 16) {clear : Bytes}
    (hsize : clear.length = storedSize file e)
    (hclear : InClear c.provider e
      (file.slice e.offset (storedSize file e)) clear) :
    ReadsExactly c file e
      ⟨if storedSize file e < e.unpackedSize.toNat then
          [.shortPayload e.path (storedSize file e) e.unpackedSize.toNat]
        else [],
        .ok (clear.take e.unpackedSize.toNat)⟩ where
  error_iff := by
    constructor
    · rintro ⟨err, herr⟩
      cases herr
    · exact fun hmissing => absurd hthere (Nat.not_le.mpr hmissing)
  error_eq err herr := by cases herr
  ok_eq data hdata := by
    cases hdata
    have hlength : (clear.take e.unpackedSize.toNat).length
        = min (storedSize file e) e.unpackedSize.toNat := by
      rw [List.length_take, hsize, Nat.min_comm]
    have hcut : clear.take e.unpackedSize.toNat
        = clear.take (clear.take e.unpackedSize.toNat).length := by
      rw [List.length_take]
      exact List.take_eq_take_min
    exact ⟨hlength, ⟨clear, hclear, hcut⟩, rfl⟩

end

/-- Of a container from memory, reading any entry fails exactly if more
than the slack is missing, and otherwise gives the beginning of the contents
in the clear. Reading through the reader that was used to open it, one
stride after the other, ends in the same way. -/
theorem readEntry_exact {name : String} {provider : Option Provider}
    {file : Bytes} {c : Container} (h : parse name provider file = .ok c)
    (e : Entry) :
    ReadsExactly c file e (c.readEntry e)
      ∧ ∀ length,
        Reader.Yields file (readPayloadFrom c e length)
          (c.readPayload e length) := by
  obtain ⟨rfl, hopened, -⟩ := parse_ok h
  refine ⟨?_, yields_readPayload hopened e⟩
  rw [readEntry_eq hopened e]
  by_cases hmissing : 16 < e.packedSize.toNat - storedSize c.file e
  · rw [if_pos hmissing]
    exact readsExactly_missing hmissing
  · rw [if_neg hmissing]
    refine readsExactly_there (Nat.le_of_not_lt hmissing) ?_
      (inClear_clearOf c e _)
    rw [length_clearOf, length_stored]

/-- An encrypted file that begins with the header of a wrapped one. Its 18
bytes are stored as two blocks. -/
def headed : Draft :=
  ⟨"f.pkg", .tiancity, Draft.usualDirectory,
    [⟨"cfg/a.etxt", zeros 10 ++ [2, 0, 2, 1, 0, 0, 0, 0], true⟩]⟩

/-- What is stored of it, up to the second byte of the second block. -/
def headedStored : Bytes :=
  [150, 231, 167, 148, 115, 24, 255, 23, 87, 65, 26, 45, 146, 41, 217, 56,
    176, 151]

/-- A container of it in which `n` of these bytes are there. -/
def headedTo (n : Nat) : Bytes := headed.front ++ headedStored.take n

def headedEntry : Entry := ⟨"cfg/a.etxt", 593, 32, 18, true, by decide⟩

theorem parse_headedTo (n : Nat) :
    parse "f.pkg" (some .tiancity) (headedTo n)
      = .ok (headed.openedOn (headedStored.take n)) :=
  Draft.parse_front (by decide +kernel) (by decide +kernel) _

/-- One byte of the second block is there, and one byte too few. -/
theorem readEntry_exact_partialBlock :
    (∃ c, parse "f.pkg" (some .tiancity) (headedTo 17) = .ok c
        ∧ c.entries = [headedEntry]
        ∧ ReadsExactly c (headedTo 17) headedEntry (c.readEntry headedEntry)
        ∧ ∀ length,
          Reader.Yields (headedTo 17) (readPayloadFrom c headedEntry length)
            (c.readPayload headedEntry length))
      ∧ storedSize (headedTo 17) headedEntry = 17 :=
  ⟨⟨_, parse_headedTo 17, by decide +kernel,
    readEntry_exact (parse_headedTo 17) headedEntry⟩, by decide +kernel⟩

end Container

-- ================================================================= peeking

namespace Wrapper

theorem length_of_hasHeader {data : Bytes} (h : hasHeader data = true) :
    18 ≤ data.length := by
  rw [← Nat.not_lt]
  intro hshort
  unfold hasHeader WrapperHeader.parse at h
  rw [if_pos (show data.length < WrapperHeader.size from hshort)] at h
  cases h

/-- A header is all in the first bytes. -/
theorem hasHeader_take {n : Nat} (hn : 18 ≤ n) (data : Bytes) :
    hasHeader (data.take n) = hasHeader data := by
  rcases Nat.le_total data.length n with hshort | hlong
  · rw [List.take_of_length_le hshort]
  have hlength : (data.take n).length = n := by
    rw [List.length_take]
    exact Nat.min_eq_left hlong
  have hparse : WrapperHeader.parse (data.take n)
      = WrapperHeader.parse data := by
    have hsize : WrapperHeader.size ≤ n := hn
    unfold WrapperHeader.parse
    rw [hlength, if_neg (Nat.not_lt.mpr hsize),
      if_neg (Nat.not_lt.mpr (Nat.le_trans hsize hlong)),
      slice_take data (Nat.le_trans (by decide) hn),
      u16At_take data (Nat.le_trans (by decide) hn),
      byteAt_take data (Nat.lt_of_lt_of_le (by decide) hn),
      byteAt_take data (Nat.lt_of_lt_of_le (by decide) hn),
      u32At_take data hn]
  unfold hasHeader
  rw [hparse]

/-- Data that were cut have a header only if the whole has it. -/
theorem hasHeader_of_take {n : Nat} {data : Bytes}
    (h : hasHeader (data.take n) = true) : hasHeader data = true := by
  have hlength := length_of_hasHeader h
  rw [List.length_take] at hlength
  rwa [hasHeader_take (Nat.le_trans hlength (Nat.min_le_left ..))] at h

theorem hasHeader_of_isWrapped {data : Bytes} (h : isWrapped data = true) :
    hasHeader data = true := by
  unfold isWrapped at h
  unfold hasHeader
  cases hparse : WrapperHeader.parse data with
  | error e =>
      rw [hparse] at h
      cases h
  | ok header =>
      rw [hparse] at h
      exact (Bool.and_eq_true_iff.mp h).1

end Wrapper

/-- Three bytes are enough to tell a texture. -/
theorem isTexture_take {n : Nat} (hn : 3 ≤ n) (data : Bytes) :
    Texture.isTexture (data.take n) = Texture.isTexture data := by
  unfold Texture.isTexture startsWith
  rw [Bool.eq_iff_iff, List.isPrefixOf_iff_prefix,
    List.isPrefixOf_iff_prefix, List.prefix_take_iff]
  exact and_iff_left hn

/-- What begins as a texture is one, with all that follows. -/
theorem isTexture_of_take {n : Nat} {data : Bytes}
    (h : Texture.isTexture (data.take n) = true) :
    Texture.isTexture data = true := by
  unfold Texture.isTexture startsWith at *
  rw [List.isPrefixOf_iff_prefix] at *
  exact h.trans (List.take_prefix ..)

namespace Container

section

variable {c : Container} (hopened : c.openedSize = c.file.length) {e : Entry}
  (hpacked : 18 ≤ e.packedSize.toNat)

include hopened hpacked

/-- Where an entry can be read, its beginning can be, and tells of all of
it. -/
theorem peek_eq (hthere : e.packedSize.toNat - storedSize c.file e ≤ 16) :
    c.peek e = .ok
      ⟨Wrapper.hasHeader
          (c.clearOf e (c.file.slice e.offset (storedSize c.file e))),
        Texture.isTexture
          (c.clearOf e (c.file.slice e.offset (storedSize c.file e)))⟩ := by
  have hstored : c.file.slice e.offset
        (min (min peekSize e.packedSize.toNat) (c.file.length - e.offset))
      = (c.file.slice e.offset (storedSize c.file e)).take 32 := by
    unfold slice storedSize
    rw [List.take_take, Nat.min_assoc]
    rfl
  have hsize : ¬ 16 < min peekSize e.packedSize.toNat
      - min (min peekSize e.packedSize.toNat)
          (c.file.length - e.offset) := by
    unfold storedSize at hthere
    omega
  have hheader : WrapperHeader.size ≤ e.packedSize.toNat := hpacked
  unfold peek
  rw [if_neg (Nat.not_lt.mpr hheader),
    readPayload_eq hopened e (Nat.min_le_right ..), if_neg hsize, hstored,
    clearOf_take c e (by decide)]
  show Except.ok _ = _
  rw [Wrapper.hasHeader_take (by decide), isTexture_take (by decide)]

end

/-- Of a container from memory, looking at the beginning of an entry that
can be read and has room for a header tells of all its contents in the
clear, and so of what is read of it. -/
theorem peek_exact {name : String} {provider : Option Provider}
    {file : Bytes} {c : Container} (h : parse name provider file = .ok c)
    {e : Entry} (hpacked : 18 ≤ e.packedSize.toNat) {data : Bytes}
    (hread : (c.readEntry e).outcome = .ok data) :
    ∃ clear flags,
      InClear c.provider e (file.slice e.offset (storedSize file e)) clear
        ∧ data = clear.take e.unpackedSize.toNat
        ∧ c.peek e = .ok flags
        ∧ Reader.Yields file (peekFrom c e) (.ok flags)
        ∧ flags.isWrapped = Wrapper.hasHeader clear
        ∧ flags.isTexture = Texture.isTexture clear
        ∧ (Wrapper.isWrapped data = true → flags.isWrapped = true)
        ∧ (Texture.isTexture data = true → flags.isTexture = true) := by
  obtain ⟨rfl, hopened, -⟩ := parse_ok h
  rw [readEntry_eq hopened e] at hread
  by_cases hmissing : 16 < e.packedSize.toNat - storedSize c.file e
  · rw [if_pos hmissing] at hread
    cases hread
  rw [if_neg hmissing] at hread
  cases hread
  have hpeek := peek_eq hopened hpacked (Nat.le_of_not_lt hmissing)
  have hyields := yields_peek hopened e
  rw [hpeek] at hyields
  exact ⟨_, _, inClear_clearOf c e _, rfl, hpeek, hyields, rfl, rfl,
    fun hwrapped => Wrapper.hasHeader_of_take
      (Wrapper.hasHeader_of_isWrapped hwrapped),
    isTexture_of_take⟩

/-- Two bytes of the second block are there, and stay as they are stored. -/
theorem readEntry_headed :
    ((headed.openedOn (headedStored.take 18)).readEntry headedEntry).outcome
      = .ok (zeros 10 ++ [2, 0, 2, 1, 0, 0, 176, 151]) :=
  Reported.toOption_eq_some_iff.mp (by decide +kernel)

/-- Two bytes of the second block are enough for the flags, though neither is
deciphered. -/
theorem peek_exact_partialBlock :
    ∃ c data, parse "f.pkg" (some .tiancity) (headedTo 18) = .ok c
      ∧ 18 ≤ headedEntry.packedSize.toNat
      ∧ (c.readEntry headedEntry).outcome = .ok data
      ∧ ∃ clear flags,
        InClear c.provider headedEntry
            ((headedTo 18).slice headedEntry.offset
              (storedSize (headedTo 18) headedEntry)) clear
          ∧ data = clear.take headedEntry.unpackedSize.toNat
          ∧ c.peek headedEntry = .ok flags
          ∧ Reader.Yields (headedTo 18) (peekFrom c headedEntry) (.ok flags)
          ∧ flags.isWrapped = Wrapper.hasHeader clear
          ∧ flags.isTexture = Texture.isTexture clear
          ∧ (Wrapper.isWrapped data = true → flags.isWrapped = true)
          ∧ (Texture.isTexture data = true → flags.isTexture = true) :=
  ⟨_, _, parse_headedTo 18, by decide, readEntry_headed,
    peek_exact (parse_headedTo 18) (by decide) readEntry_headed⟩

end Container
end GameArchive.Package
