/-
Frames read back.

A frame is found, measured and decoded wherever it begins a byte string,
whatever follows it; cut short anywhere, it is refused as truncated and
nothing else. Both rest on the header alone, which says how long the
stream behind it is, and on the round trip of streams.

Main statement: `frame_round_trip`.
-/
import GameArchive.Lzma.Frame
import GameArchive.Proofs.Bytes.Reading
import GameArchive.Proofs.Lzma.Literals

namespace GameArchive.Lzma

open Bytes

-- ============================================================== headers

namespace FrameHeader

theorem length_toBytes (h : FrameHeader) : h.toBytes.length = size := rfl

/-- A header reads back, whatever follows it. -/
theorem parse_toBytes (h : FrameHeader) (rest : Bytes) :
    parse (h.toBytes ++ rest) = .ok h := by
  have hlength : ¬ (h.toBytes ++ rest).length < size := by
    rw [List.length_append, length_toBytes]
    omega
  unfold parse
  rw [if_neg hlength]
  simp only [toBytes, Properties.toBytes, Properties.read,
    List.append_assoc, List.cons_append, u32At_head, byteAt_head,
    u32At_behind_word, u32At_behind_byte, byteAt_behind_word, ↓reduceIte,
    Nat.reduceAdd]

end FrameHeader

-- =============================================================== frames

/-- A frame is the header of a byte string's stream, and the stream. -/
theorem compress?_eq_some {data frame : Bytes}
    (h : compress? data = some frame) :
    ∃ header : FrameHeader,
      header.decodedSize.toNat = data.length
        ∧ header.streamSize.toNat = (encodeStream data).length
        ∧ header.properties = .standard
        ∧ frame = header.toBytes ++ encodeStream data := by
  unfold compress? at h
  generalize encodeStream data = stream at h ⊢
  dsimp only at h
  split at h
  case isFalse => cases h
  case isTrue hsize =>
      injection h with h
      exact ⟨_, UInt32.toNat_ofNat_of_lt' hsize.1,
        UInt32.toNat_ofNat_of_lt' hsize.2, rfl, h.symm⟩

/-- Only data of hundreds of megabytes may have no frame. -/
theorem exists_compress? (data : Bytes) (h : data.length < 0x1C000000) :
    ∃ frame, compress? data = some frame := by
  have hlength := length_encodeStream_le data
  unfold compress?
  generalize encodeStream data = stream at hlength ⊢
  dsimp only
  rw [if_pos ⟨by omega, by omega⟩]
  exact ⟨_, rfl⟩

/-- A byte takes at most nine in its frame. -/
theorem length_compress?_le {data frame : Bytes}
    (h : compress? data = some frame) :
    frame.length ≤ 9 * data.length + 64 := by
  have hlength := length_encodeStream_le data
  obtain ⟨header, -, -, -, rfl⟩ := compress?_eq_some h
  rw [List.length_append, FrameHeader.length_toBytes]
  unfold FrameHeader.size
  omega

/-- Where there is one for its size, 32 bits count it. -/
theorem length_compress?_lt {data frame : Bytes}
    (h : compress? data = some frame) (hdata : data.length < 0x1C000000) :
    frame.length < 0x100000000 := by
  have hlength := length_compress?_le h
  omega

/-- The header of a frame, whatever follows the frame. -/
theorem parse_frame {data frame : Bytes} (h : compress? data = some frame)
    (rest : Bytes) :
    ∃ header, FrameHeader.parse (frame ++ rest) = .ok header
      ∧ header.decodedSize.toNat = data.length
      ∧ header.frameLength = frame.length := by
  obtain ⟨header, hdecoded, hstream, -, rfl⟩ := compress?_eq_some h
  refine ⟨header, ?_, hdecoded, ?_⟩
  · rw [List.append_assoc]
    exact header.parse_toBytes _
  · unfold FrameHeader.frameLength
    rw [hstream, List.length_append, FrameHeader.length_toBytes]

/-- What compression gives is a frame, whatever follows it. -/
theorem isFrame_append {data frame : Bytes} (h : compress? data = some frame)
    (rest : Bytes) : isFrame (frame ++ rest) = true := by
  obtain ⟨header, -, -, -, rfl⟩ := compress?_eq_some h
  have hlength : FrameHeader.size
      ≤ (header.toBytes ++ encodeStream data ++ rest).length := by
    rw [List.length_append, List.length_append, FrameHeader.length_toBytes]
    omega
  have hletters : (header.toBytes ++ encodeStream data ++ rest).startsWith
      (ofUInt32 FrameHeader.id) = true := by
    unfold FrameHeader.toBytes
    simp only [List.append_assoc]
    exact startsWith_append _ _
  unfold isFrame
  rw [hletters, decide_eq_true hlength]
  rfl

/-- Decoding stops at the end of the frame. -/
theorem decompress_append {data frame : Bytes}
    (h : compress? data = some frame) (rest : Bytes) :
    decompress (frame ++ rest) = .ok data := by
  obtain ⟨header, hdecoded, hstream, hproperties, rfl⟩ := compress?_eq_some h
  -- The header says how much of the data is the stream.
  have hlength : ¬ (header.toBytes ++ encodeStream data ++ rest).length
      < header.frameLength := by
    unfold FrameHeader.frameLength
    rw [hstream, List.length_append, List.length_append,
      FrameHeader.length_toBytes]
    omega
  have hslice : (header.toBytes ++ encodeStream data ++ rest).slice
      FrameHeader.size (encodeStream data).length = encodeStream data := by
    rw [List.append_assoc]
    exact (slice_behind header.length_toBytes _ 0 _).trans (slice_head rfl _)
  have hparse : FrameHeader.parse (header.toBytes ++ encodeStream data ++ rest)
      = .ok header := by
    rw [List.append_assoc]
    exact header.parse_toBytes _
  unfold decompress
  simp only [hparse, bind, Except.bind]
  rw [if_neg hlength, hstream, hslice, hdecoded, hproperties,
    decodeStream_encodeStream]
  rfl

/-- A frame cut short is refused as truncated. -/
theorem decompress_take {data frame : Bytes}
    (h : compress? data = some frame) {n : Nat} (hn : n < frame.length) :
    ∃ offset needed available, decompress (frame.take n)
      = .error (.truncated offset needed available) := by
  obtain ⟨header, -, hstream, -, rfl⟩ := compress?_eq_some h
  have hcut : ((header.toBytes ++ encodeStream data).take n).length = n := by
    rw [List.length_take]
    omega
  unfold decompress
  by_cases hshort : n < FrameHeader.size
  · have hparse : FrameHeader.parse
        ((header.toBytes ++ encodeStream data).take n)
        = .error (.truncated 0 FrameHeader.size n) := by
      unfold FrameHeader.parse
      rw [hcut, if_pos hshort]
    simp only [hparse, bind, Except.bind]
    exact ⟨_, _, _, rfl⟩
  · -- the header is whole, and asks for more of the stream than there is
    have hparse : FrameHeader.parse
        ((header.toBytes ++ encodeStream data).take n) = .ok header := by
      rw [List.take_append, FrameHeader.length_toBytes,
        List.take_of_length_le (by rw [FrameHeader.length_toBytes]; omega)]
      exact header.parse_toBytes _
    have hlength : n < header.frameLength := by
      unfold FrameHeader.frameLength
      rw [List.length_append, FrameHeader.length_toBytes] at hn
      omega
    simp only [hparse, bind, Except.bind]
    rw [hcut, if_pos hlength]
    exact ⟨_, _, _, rfl⟩

/-- A byte string that has a frame is what every byte string beginning with
that frame decodes to; its frame is recognised, tells the decoded size and
its own length there, and cut short anywhere it is refused as truncated. -/
theorem frame_round_trip {data frame : Bytes}
    (h : compress? data = some frame) :
    (∀ rest : Bytes,
      isFrame (frame ++ rest) = true
        ∧ (declaredSize? (frame ++ rest)).map UInt32.toNat = some data.length
        ∧ (∃ header, FrameHeader.parse (frame ++ rest) = .ok header
            ∧ header.frameLength = frame.length)
        ∧ decompress (frame ++ rest) = .ok data)
      ∧ ∀ head : Bytes, head <+: frame → head ≠ frame →
          ∃ offset needed available,
            decompress head = .error (.truncated offset needed available) := by
  constructor
  · intro rest
    obtain ⟨header, hparse, hdecoded, hlength⟩ := parse_frame h rest
    refine ⟨isFrame_append h rest, ?_, ⟨header, hparse, hlength⟩,
      decompress_append h rest⟩
    unfold declaredSize?
    rw [hparse, ← hdecoded]
    rfl
  · intro head hhead hne
    rw [List.prefix_iff_eq_take.mp hhead]
    refine decompress_take h (Nat.lt_of_le_of_ne hhead.length_le ?_)
    exact fun hlength => hne (hhead.eq_of_length hlength)

/-- Two bytes whose encoding carries into a run of 255s: their frame, with a
byte behind it, and with nothing of it left. -/
theorem frame_round_trip_carried :
    ∃ frame, compress? [0, 243] = some frame
      ∧ (isFrame (frame ++ [0xAA]) = true
        ∧ (declaredSize? (frame ++ [0xAA])).map UInt32.toNat = some 2
        ∧ (∃ header, FrameHeader.parse (frame ++ [0xAA]) = .ok header
            ∧ header.frameLength = frame.length)
        ∧ decompress (frame ++ [0xAA]) = .ok [0, 243])
      ∧ ∃ offset needed available,
          decompress [] = .error (.truncated offset needed available) := by
  obtain ⟨frame, h⟩ := exists_compress? [0, 243] (by decide)
  obtain ⟨hwhole, hcut⟩ := frame_round_trip h
  refine ⟨frame, h, hwhole [0xAA], hcut [] List.nil_prefix ?_⟩
  intro hnil
  have hframe := isFrame_append h []
  rw [← hnil] at hframe
  cases hframe

end GameArchive.Lzma
