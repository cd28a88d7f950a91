/-
Range decoding undoes range coding.

A decision cuts the interval of the encoder to the part that stands for
it, so every later interval lies within every earlier one. Whatever is
written in the end is a number within the last interval, hence within all
of them (`Covers`), and this is what the decoder reads its decisions off:
its code is the distance of that number from the lower end
(`Mirrors`), and only one part of the interval is at this distance.

# What has to be kept

- Either part of a cut must be wide enough that one byte widens it again:
  a chance is never closer than 31 to either end (`Fair`), and adapting
  keeps it so.
- The interval must not reach a second carry (`Bounded`), or the cached
  byte could not take it.
- The decoder reads a byte exactly when the encoder takes one off, and
  the encoder has handed on four bytes less than it will; so the decoder
  never runs out (`Covers.enough`).

Main statements: `Sound.encode` (the encoder's invariant),
`Covers.of_encode` (intervals are nested), `covers_finish` (the last one
holds what is written) and `decode_mirrors` (the decoder takes the same
decision).
-/
import GameArchive.Proofs.Lzma.Carry

namespace GameArchive.Lzma

open Bytes (bigEndian bigEndian_concat)

-- ====================================================== fair chances

/-- A chance that leaves room for either decision. -/
def Fair (chance : Nat) : Prop := 31 ≤ chance ∧ chance ≤ 2017

/-- Chances begin even. -/
theorem fair_even : Fair even := by
  unfold Fair even
  omega

/-- Adapting never makes a decision impossible. -/
theorem Fair.adapt {chance : Nat} (hf : Fair chance) (bit : Bool) :
    Fair (adapt chance bit) := by
  obtain ⟨hlow, hhigh⟩ := hf
  unfold Lzma.adapt Fair
  cases bit
  · rw [if_neg Bool.false_ne_true]
    omega
  · rw [if_pos rfl]
    omega

-- ============================================ the parts of an interval

/-- Where the part of a decision begins in a range. -/
def partStart (range chance : Nat) (bit : Bool) : Nat :=
  if bit then split range chance else 0

/-- How wide the part of a decision is. -/
def partWidth (range chance : Nat) (bit : Bool) : Nat :=
  if bit then range - split range chance else split range chance

/-- A part lies within the range, and one byte widens it again. -/
theorem part_bounds {range chance : Nat} (hwide : 0x1000000 ≤ range)
    (hf : Fair chance) (bit : Bool) :
    partStart range chance bit + partWidth range chance bit ≤ range
      ∧ 0x10000 ≤ partWidth range chance bit := by
  obtain ⟨hlow, hhigh⟩ := hf
  have hleast : range / 2048 * 31 ≤ split range chance :=
    Nat.mul_le_mul_left _ hlow
  have hmost : split range chance ≤ range / 2048 * 2017 :=
    Nat.mul_le_mul_left _ hhigh
  unfold partStart partWidth
  cases bit
  · simp only [Bool.false_eq_true, if_false]
    omega
  · simp only [if_true]
    omega

namespace RangeEncoder

/-- The encoder on a part of its interval. -/
def cut (e : RangeEncoder) (start width : Nat) : RangeEncoder :=
  { e with low := e.low + start, range := width }

/-- A decision cuts the interval and widens it again. -/
theorem encode_eq (e : RangeEncoder) (chance : Nat) (bit : Bool) :
    e.encode chance bit
      = (e.cut (partStart e.range chance bit)
          (partWidth e.range chance bit)).widen := by
  cases bit <;> rfl

/-- Cutting raises the lower end by what is cut off below. -/
theorem lower_cut (e : RangeEncoder) (start width : Nat) :
    (e.cut start width).lower = e.lower + start := by
  unfold lower cut pending
  dsimp only
  omega

theorem handled_cut (e : RangeEncoder) (start width : Nat) :
    (e.cut start width).handled = e.handled := rfl

-- ============================================= the encoder's invariant

/-- The interval reaches no carry that finds no byte. -/
structure Bounded (e : RangeEncoder) : Prop where
  waits : 0 < e.waiting
  high : e.low + e.range ≤ 0x200000000
  fits : e.cache = 0xFF → e.low + e.range ≤ 0x100000000

/-- Moreover, the interval is wide enough to be cut. -/
structure Sound (e : RangeEncoder) : Prop extends Bounded e where
  wide : 0x1000000 ≤ e.range

/-- As long as the interval is not empty, its lower end is safe if its upper end
is. -/
theorem Bounded.carrySafe {e : RangeEncoder} (hb : e.Bounded)
    (hpos : 0 < e.range) : e.CarrySafe := by
  refine ⟨hb.waits, ?_, fun hcache => ?_⟩
  · have := hb.high
    omega
  · have := hb.fits hcache
    omega

/-- A part of the interval is within the bounds of the whole. -/
theorem Bounded.cut {e : RangeEncoder} (hb : e.Bounded) {start width : Nat}
    (hpart : start + width ≤ e.range) : (e.cut start width).Bounded := by
  refine ⟨hb.waits, ?_, fun hcache => ?_⟩
  · have := hb.high
    show e.low + start + width ≤ 0x200000000
    omega
  · have := hb.fits hcache
    show e.low + start + width ≤ 0x100000000
    omega

/-- A narrow encoder takes a byte off. -/
theorem widen_of_narrow {e : RangeEncoder} (hn : e.range < 0x1000000) :
    e.widen = shiftLow { e with range := e.range * 256 } := by
  unfold widen
  rw [if_pos hn]

theorem widen_of_wide {e : RangeEncoder} (hw : ¬ e.range < 0x1000000) :
    e.widen = e := by
  unfold widen
  rw [if_neg hw]

/-- The interval of a narrow encoder, one byte on. -/
theorem widen_parts {e : RangeEncoder} (hsafe : e.CarrySafe)
    (hn : e.range < 0x1000000) :
    e.widen.range = e.range * 256
      ∧ e.widen.lower = 256 * e.lower
      ∧ e.widen.handled = e.handled + 1 := by
  rw [widen_of_narrow hn]
  exact ⟨range_shiftLow _,
    lower_shiftLow (e := { e with range := e.range * 256 })
      ⟨hsafe.waits, hsafe.low_lt, hsafe.fits⟩,
    handled_shiftLow (e := { e with range := e.range * 256 }) hsafe.waits⟩

/-- A carry that has been taken leaves no second one behind. -/
theorem Bounded.shiftLow {e : RangeEncoder} (hb : e.Bounded)
    (hn : e.range < 0x1000000) :
    (RangeEncoder.shiftLow { e with range := e.range * 256 }).Bounded := by
  have hhigh := hb.high
  refine ⟨?_, ?_, ?_⟩
  · unfold RangeEncoder.shiftLow
    dsimp only
    split
    · exact Nat.one_pos
    · exact Nat.succ_pos _
  · rw [low_shiftLow, range_shiftLow]
    show e.low % 0x1000000 * 256 + e.range * 256 ≤ 0x200000000
    omega
  · rw [low_shiftLow, range_shiftLow]
    show _ → e.low % 0x1000000 * 256 + e.range * 256 ≤ 0x100000000
    unfold RangeEncoder.shiftLow
    dsimp only
    split
    · -- a fresh 255 is cached only together with the carry before it
      intro hcache
      have hbyte : e.low / 0x1000000 % 256 = 255 := by
        have := congrArg UInt8.toNat hcache
        rwa [UInt8.toNat_ofNat'] at this
      omega
    · intro hcache
      have := hb.fits hcache
      omega

/-- One byte is enough to make a part wide again. -/
theorem Bounded.sound_widen {e : RangeEncoder} (hb : e.Bounded)
    (hrange : 0x10000 ≤ e.range) : e.widen.Sound := by
  by_cases hn : e.range < 0x1000000
  · rw [widen_of_narrow hn]
    refine ⟨hb.shiftLow hn, ?_⟩
    rw [range_shiftLow]
    show 0x1000000 ≤ e.range * 256
    omega
  · rw [widen_of_wide hn]
    exact ⟨hb, by omega⟩

/-- A decision of fair chance keeps the invariant. -/
theorem Sound.encode {e : RangeEncoder} (hs : e.Sound) {chance : Nat}
    (hf : Fair chance) (bit : Bool) : (e.encode chance bit).Sound := by
  obtain ⟨hpart, hwidth⟩ := part_bounds hs.wide hf bit
  rw [encode_eq]
  exact (hs.toBounded.cut hpart).sound_widen hwidth

/-- A decision hands on one byte at most. -/
theorem handled_encode_le {e : RangeEncoder} (hs : e.Sound) {chance : Nat}
    (hf : Fair chance) (bit : Bool) :
    (e.encode chance bit).handled ≤ e.handled + 1 := by
  obtain ⟨hpart, hwidth⟩ := part_bounds hs.wide hf bit
  rw [encode_eq]
  by_cases hn : (e.cut (partStart e.range chance bit)
      (partWidth e.range chance bit)).range < 0x1000000
  · have hsafe := (hs.toBounded.cut hpart).carrySafe
      (show 0 < partWidth e.range chance bit by omega)
    exact Nat.le_of_eq (by rw [(widen_parts hsafe hn).2.2, handled_cut])
  · rw [widen_of_wide hn, handled_cut]
    exact Nat.le_succ _

/-- The encoder begins with the widest interval. -/
theorem sound_start : start.Sound :=
  ⟨⟨by decide, by decide, by decide⟩, by decide⟩

-- ==================================================== nested intervals

/-- The stream is long enough to be decoded so far, and what has been read
of it by then lies in the interval. -/
structure Covers (e : RangeEncoder) (stream : Bytes) : Prop where
  enough : e.handled + 4 ≤ stream.length
  above : e.lower ≤ bigEndian (stream.take (e.handled + 4))
  below : bigEndian (stream.take (e.handled + 4)) < e.lower + e.range

/-- One more byte of the stream. -/
theorem bigEndian_take_succ {stream : Bytes} {n : Nat}
    (h : n < stream.length) :
    bigEndian (stream.take (n + 1))
      = bigEndian (stream.take n) * 256 + stream[n].toNat := by
  rw [← List.take_append_getElem h, bigEndian_concat]

/-- A stream that lies in a part lies in the whole. -/
theorem Covers.of_cut {e : RangeEncoder} {stream : Bytes}
    {start width : Nat} (hpart : start + width ≤ e.range)
    (hc : (e.cut start width).Covers stream) : e.Covers stream := by
  have habove := hc.above
  have hbelow := hc.below
  rw [lower_cut, handled_cut] at habove hbelow
  have hrange : (e.cut start width).range = width := rfl
  refine ⟨hc.enough, ?_, ?_⟩ <;> omega

/-- A stream that lies in the widened interval lay in it before. -/
theorem Covers.of_widen {e : RangeEncoder} {stream : Bytes}
    (hb : e.Bounded) (hpos : 0 < e.range) (hc : e.widen.Covers stream) :
    e.Covers stream := by
  by_cases hn : e.range < 0x1000000
  · obtain ⟨hrange, hlower, hhandled⟩ := widen_parts (hb.carrySafe hpos) hn
    have henough := hc.enough
    have habove := hc.above
    have hbelow := hc.below
    rw [hhandled] at henough
    have hnext : e.handled + 4 < stream.length := by omega
    rw [hhandled, hlower,
      show e.handled + 1 + 4 = e.handled + 4 + 1 from by omega,
      bigEndian_take_succ hnext] at habove hbelow
    rw [hrange] at hbelow
    have hbyte := stream[e.handled + 4].toNat_lt
    refine ⟨by omega, ?_, ?_⟩ <;> omega
  · rwa [widen_of_wide hn] at hc

/-- What lies in the interval after a decision lies in the one before. -/
theorem Covers.of_encode {e : RangeEncoder} (hs : e.Sound) {chance : Nat}
    (hf : Fair chance) {bit : Bool} {stream : Bytes}
    (hc : (e.encode chance bit).Covers stream) : e.Covers stream := by
  obtain ⟨hpart, hwidth⟩ := part_bounds hs.wide hf bit
  rw [encode_eq] at hc
  refine .of_cut hpart (.of_widen (hs.toBounded.cut hpart) ?_ hc)
  show 0 < partWidth e.range chance bit
  omega

/-- What is written in the end lies in the last interval. -/
theorem covers_finish {e : RangeEncoder} (hs : e.Sound) :
    e.Covers e.finish.toList := by
  have hwide := hs.wide
  obtain ⟨hvalue, hlength⟩ := bigEndian_finish (hs.carrySafe (by omega))
  have hall : e.finish.toList.take (e.handled + 4) = e.finish.toList :=
    List.take_of_length_le (by omega)
  rw [← hall] at hvalue
  exact ⟨by omega, Nat.le_of_eq hvalue.symm, by omega⟩

end RangeEncoder

-- ======================================================== the decoder

namespace RangeDecoder

/-- The decoder has read what the encoder's bytes so far are read with, and
its code is the distance from the lower end. -/
structure Mirrors (d : RangeDecoder) (e : RangeEncoder) (stream : Bytes) :
    Prop where
  range : d.range = e.range
  input : d.input = stream.drop (e.handled + 4)
  code : e.lower + d.code = bigEndian (stream.take (e.handled + 4))

/-- The code of a decoder that reads such a stream is within the range. -/
theorem Mirrors.code_lt {d : RangeDecoder} {e : RangeEncoder}
    {stream : Bytes} (hm : d.Mirrors e stream) (hc : e.Covers stream) :
    d.code < e.range := by
  have hbelow := hc.below
  rw [← hm.code] at hbelow
  omega

/-- The decoder starts where the encoder does. -/
theorem start_mirrors {stream : Bytes}
    (hc : RangeEncoder.start.Covers stream) :
    ∃ d, start stream = .ok d ∧ d.Mirrors RangeEncoder.start stream := by
  have hhandled : RangeEncoder.start.handled = 1 := rfl
  have hlower : RangeEncoder.start.lower = 0 := rfl
  have henough := hc.enough
  have hbelow := hc.below
  rw [hhandled] at henough hbelow
  rw [hlower] at hbelow
  have hrange : RangeEncoder.start.range = 0xFFFFFFFF := rfl
  rcases stream with _ | ⟨first, _ | ⟨a, _ | ⟨b, _ | ⟨c, _ | ⟨d, rest⟩⟩⟩⟩⟩
  case cons.cons.cons.cons.cons =>
    refine ⟨⟨0xFFFFFFFF, _, rest⟩, rfl, ⟨rfl, rfl, ?_⟩⟩
    rw [hhandled, hlower]
    simp only [List.take_succ_cons, List.take_zero,
      Bytes.bigEndian_cons, List.length_cons, List.length_nil,
      Bytes.capacity, Bytes.bigEndian_nil] at hbelow ⊢
    -- the first byte is a zero, or the number would not be in the range
    omega
  all_goals simp at henough

/-- The decoder widens its range with the encoder, and finds the byte that
this takes. -/
theorem widen_mirrors {d : RangeDecoder} {e : RangeEncoder}
    {stream : Bytes} (hb : e.Bounded) (hpos : 0 < e.range)
    (hm : d.Mirrors e stream) (hc : e.widen.Covers stream) :
    ∃ d', d.widen = .ok d' ∧ d'.Mirrors e.widen stream := by
  have hcode := hm.code_lt (.of_widen hb hpos hc)
  unfold widen
  rw [hm.range]
  by_cases hn : e.range < 0x1000000
  · obtain ⟨hrange, hlower, hhandled⟩ :=
      RangeEncoder.widen_parts (hb.carrySafe hpos) hn
    have henough := hc.enough
    rw [hhandled] at henough
    have hnext : e.handled + 4 < stream.length := by omega
    have hread : stream.drop (e.handled + 4)
        = stream[e.handled + 4] :: stream.drop (e.handled + 4 + 1) :=
      List.drop_eq_getElem_cons hnext
    have hbyte := stream[e.handled + 4].toNat_lt
    rw [if_pos hn, hm.input, hread]
    refine ⟨_, rfl, hrange.symm, ?_, ?_⟩
    · rw [hhandled]
    · rw [hlower, hhandled,
        show e.handled + 1 + 4 = e.handled + 4 + 1 from by omega,
        RangeEncoder.bigEndian_take_succ hnext, ← hm.code]
      dsimp only
      rw [Nat.mod_eq_of_lt (by omega)]
      omega
  · rw [if_neg hn, RangeEncoder.widen_of_wide hn]
    exact ⟨d, rfl, hm⟩

/-- The decoder on a part of its interval. -/
theorem Mirrors.cut {d : RangeDecoder} {e : RangeEncoder} {stream : Bytes}
    (hm : d.Mirrors e stream) {start : Nat} (width : Nat)
    (hstart : start ≤ d.code) :
    Mirrors { d with range := width, code := d.code - start }
      (e.cut start width) stream := by
  have hcode := hm.code
  refine ⟨rfl, hm.input, ?_⟩
  rw [RangeEncoder.lower_cut, RangeEncoder.handled_cut]
  dsimp only
  omega

/-- The decoder takes the decision that was encoded. -/
theorem decode_mirrors {d : RangeDecoder} {e : RangeEncoder}
    {stream : Bytes} (hs : e.Sound) {chance : Nat} (hf : Fair chance)
    {bit : Bool} (hm : d.Mirrors e stream)
    (hc : (e.encode chance bit).Covers stream) :
    ∃ d', d.decode chance = .ok (bit, d')
      ∧ d'.Mirrors (e.encode chance bit) stream := by
  obtain ⟨hpart, hwidth⟩ := part_bounds hs.wide hf bit
  rw [RangeEncoder.encode_eq] at hc ⊢
  have hb := hs.toBounded.cut hpart
  have hpos : 0 < partWidth e.range chance bit := by omega
  -- the code lies in the part that was cut to
  have hcut := RangeEncoder.Covers.of_widen hb hpos hc
  have habove := hcut.above
  have hbelow := hcut.below
  rw [RangeEncoder.lower_cut, RangeEncoder.handled_cut, ← hm.code]
    at habove hbelow
  have hrange : (e.cut (partStart e.range chance bit)
      (partWidth e.range chance bit)).range = partWidth e.range chance bit :=
    rfl
  rw [hrange] at hbelow
  obtain ⟨d', hd', hm'⟩ := widen_mirrors hb hpos
    (hm.cut (partWidth e.range chance bit) (by omega)) hc
  refine ⟨d', ?_, hm'⟩
  unfold decode
  dsimp only
  rw [hm.range]
  cases bit with
  | false =>
      have hlt : d.code < split e.range chance := by
        simp only [partStart, partWidth, Bool.false_eq_true, if_false]
          at hbelow
        omega
      rw [if_pos hlt]
      exact congrArg (Except.map fun d => (false, d)) hd'
  | true =>
      have hge : ¬ d.code < split e.range chance := by
        simp only [partStart, if_true] at habove
        omega
      rw [if_neg hge]
      exact congrArg (Except.map fun d => (true, d)) hd'

end RangeDecoder
end GameArchive.Lzma
