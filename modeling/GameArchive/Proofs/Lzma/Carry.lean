/-
The range encoder's output as one number.

A range encoder holds the lower end of its interval in four places: the
bytes that are final, the cached byte, the run of 255s behind it and
`low`, whose 33rd bit is a carry into the other three. Read as one number
(`lower`) they are simply the lower end: a decision adds to it, and
taking a byte off multiplies it by 256 (`lower_shiftLow`). Everything
about carries is in that one statement.

It holds as long as a carry finds a byte that can take it. The cached
byte can always take one carry, since it is cached only when the byte is
below 255 or has just taken one; `CarrySafe` says so, and needs to know
that a cached 255 is never carried into.

Main statements: `lower_shiftLow`, and `finish` writes the lower end out
in full (`bigEndian_finish`).
-/
import GameArchive.Lzma.RangeCoder

namespace GameArchive

-- ================================================ highest byte first

namespace Bytes

/-- The number whose bytes, highest first, are these. -/
def bigEndian (data : Bytes) : Nat := toNat data.reverse

/-- The lower bytes of a number lie below the higher ones. -/
theorem toNat_append (a b : Bytes) :
    toNat (a ++ b) = toNat a + capacity a.length * toNat b := by
  induction a with
  | nil => simp [toNat, capacity]
  | cons x a ih =>
      rw [List.cons_append, toNat, ih, toNat, List.length_cons, capacity,
        Nat.mul_add, Nat.mul_assoc, Nat.add_assoc]

/-- With the highest byte first, the front counts in units of what follows
it. -/
theorem bigEndian_append (a b : Bytes) :
    bigEndian (a ++ b) = bigEndian a * capacity b.length + bigEndian b := by
  unfold bigEndian
  rw [List.reverse_append, toNat_append, List.length_reverse, Nat.mul_comm,
    Nat.add_comm]

@[simp] theorem bigEndian_nil : bigEndian [] = 0 := rfl

@[simp] theorem bigEndian_singleton (b : UInt8) : bigEndian [b] = b.toNat := by
  simp [bigEndian, toNat]

/-- One more byte at the low end. -/
theorem bigEndian_concat (a : Bytes) (b : UInt8) :
    bigEndian (a ++ [b]) = bigEndian a * 256 + b.toNat := by
  rw [bigEndian_append, bigEndian_singleton]
  rfl

/-- One more byte at the high end. -/
theorem bigEndian_cons (b : UInt8) (a : Bytes) :
    bigEndian (b :: a) = b.toNat * capacity a.length + bigEndian a := by
  rw [← List.singleton_append, bigEndian_append, bigEndian_singleton]

/-- Adding one to a byte that is followed by 255s turns these to zeros. -/
theorem bigEndian_carry (a : Bytes) (b : UInt8) (n : Nat) (hb : b ≠ 0xFF) :
    bigEndian (a ++ (b + 1) :: List.replicate n 0)
      = bigEndian (a ++ b :: List.replicate n 0xFF) + 1 := by
  induction n with
  | zero =>
      have hlt : b.toNat < 255 := by
        have hne : b.toNat ≠ 255 := fun h => hb (UInt8.toNat_inj.mp h)
        have := b.toNat_lt
        omega
      simp only [List.replicate_zero, bigEndian_concat, UInt8.toNat_add,
        UInt8.toNat_one]
      omega
  | succ n ih =>
      have hzero : a ++ (b + 1) :: List.replicate (n + 1) 0
          = (a ++ (b + 1) :: List.replicate n 0) ++ [0] := by
        simp [List.replicate_succ']
      have hfull : a ++ b :: List.replicate (n + 1) 0xFF
          = (a ++ b :: List.replicate n 0xFF) ++ [0xFF] := by
        simp [List.replicate_succ']
      rw [hzero, hfull, bigEndian_concat, bigEndian_concat, ih]
      show _ + 0 = _ + 255 + 1
      omega

end Bytes

namespace Lzma.RangeEncoder

-- ================================================ the lower end

/-- The bytes that a carry may still change. -/
def pending (e : RangeEncoder) : Bytes :=
  e.cache :: List.replicate (e.waiting - 1) 0xFF

/-- The lower end of the interval, all bytes so far included. -/
def lower (e : RangeEncoder) : Nat :=
  Bytes.bigEndian (e.out.toList ++ e.pending) * 0x100000000 + e.low

/-- The number of bytes handed on, final or not. -/
def handled (e : RangeEncoder) : Nat := e.out.size + e.waiting

/-- A carry finds a byte that can take it. -/
structure CarrySafe (e : RangeEncoder) : Prop where
  waits : 0 < e.waiting
  low_lt : e.low < 0x200000000
  fits : e.cache = 0xFF → e.low < 0x100000000

/-- Bytes that are held back are written behind those before them. -/
theorem toList_pushTimes (byte : UInt8) (n : Nat) (out : Array UInt8) :
    (pushTimes byte n out).toList = out.toList ++ List.replicate n byte := by
  induction n generalizing out with
  | zero => simp [pushTimes]
  | succ n ih => simp [pushTimes, ih, List.replicate_succ]

theorem size_pushTimes (byte : UInt8) (n : Nat) (out : Array UInt8) :
    (pushTimes byte n out).size = out.size + n := by
  rw [← Array.length_toList, toList_pushTimes]
  simp

-- ================================================ taking a byte off

/-- What is left of `low` when a byte has been taken off has no carry. -/
theorem low_shiftLow (e : RangeEncoder) :
    e.shiftLow.low = e.low % 0x1000000 * 256 := by
  unfold shiftLow
  dsimp only
  split <;> rfl

@[simp] theorem range_shiftLow (e : RangeEncoder) :
    e.shiftLow.range = e.range := by
  unfold shiftLow
  dsimp only
  split <;> rfl

/-- One more byte is handed on, whether it is written or held back. -/
theorem handled_shiftLow {e : RangeEncoder} (he : 0 < e.waiting) :
    e.shiftLow.handled = e.handled + 1 := by
  unfold shiftLow handled
  dsimp only
  split
  · simp only [size_pushTimes, Array.size_push]
    omega
  · rfl

/-- Handing on a byte leaves one that can take the next carry. -/
theorem CarrySafe.shiftLow {e : RangeEncoder} (he : e.CarrySafe) :
    e.shiftLow.CarrySafe := by
  have hlow := low_shiftLow e
  refine ⟨?_, by omega, fun _ => by omega⟩
  have := he.waits
  unfold RangeEncoder.shiftLow
  dsimp only
  split
  · exact Nat.one_pos
  · exact Nat.succ_pos _

/-- Bytes that become final keep their value, the carry included. -/
theorem bigEndian_settle {e : RangeEncoder} (he : e.CarrySafe) :
    let carry := UInt8.ofNat (e.low / 0x100000000)
    Bytes.bigEndian ((e.out.push (e.cache + carry)).toList
        ++ List.replicate (e.waiting - 1) (0xFF + carry))
      = Bytes.bigEndian (e.out.toList ++ e.pending)
        + e.low / 0x100000000 := by
  have hlow := he.low_lt
  by_cases hcarry : e.low < 0x100000000
  · have hzero : e.low / 0x100000000 = 0 := by omega
    rw [hzero]
    simp [pending]
  · have hone : e.low / 0x100000000 = 1 := by omega
    have hcache : e.cache ≠ 0xFF := fun h => hcarry (he.fits h)
    rw [hone, pending, ← Bytes.bigEndian_carry _ _ _ hcache]
    simp

/-- Taking a byte off multiplies the lower end by 256. -/
theorem lower_shiftLow {e : RangeEncoder} (he : e.CarrySafe) :
    e.shiftLow.lower = 256 * e.lower := by
  have hlow := he.low_lt
  have hwaits := he.waits
  by_cases hfinal : e.low < 0xFF000000 ∨ 0x100000000 ≤ e.low
  · have hsettle := bigEndian_settle he
    have hbyte : (UInt8.ofNat (e.low / 0x1000000)).toNat
        = e.low / 0x1000000 % 256 := UInt8.toNat_ofNat'
    unfold shiftLow lower
    rw [if_pos hfinal]
    simp only [toList_pushTimes]
    rw [pending, Nat.sub_self, List.replicate_zero, Bytes.bigEndian_concat,
      hsettle, hbyte]
    omega
  · have hpending : e.shiftLow.pending = e.pending ++ [0xFF] := by
      obtain ⟨n, hn⟩ : ∃ n, e.waiting = n + 1 := ⟨e.waiting - 1, by omega⟩
      simp [pending, shiftLow, if_neg hfinal, hn, List.replicate_succ']
    have hout : e.shiftLow.out = e.out := by
      simp [shiftLow, if_neg hfinal]
    have hbyte : (0xFF : UInt8).toNat = 255 := rfl
    unfold lower
    rw [hpending, hout, ← List.append_assoc, Bytes.bigEndian_concat,
      low_shiftLow, hbyte]
    omega

-- ================================================ the last bytes

/-- Handing on all that is left writes the lower end out in full, in four
bytes more than were handled. -/
theorem bigEndian_finish {e : RangeEncoder} (he : e.CarrySafe) :
    Bytes.bigEndian e.finish.toList = e.lower
      ∧ e.finish.toList.length = e.handled + 4 := by
  -- the fifth byte taken off is a zero that pushes the other four out
  let e₄ := e.shiftLow.shiftLow.shiftLow.shiftLow
  have h₁ := he.shiftLow
  have h₂ := h₁.shiftLow
  have h₃ := h₂.shiftLow
  have h₄ : e₄.CarrySafe := h₃.shiftLow
  have hlow : e₄.low = 0 := by
    simp only [e₄, low_shiftLow]
    omega
  have hlower : e₄.lower = 0x100000000 * e.lower := by
    simp only [e₄, lower_shiftLow h₃, lower_shiftLow h₂, lower_shiftLow h₁,
      lower_shiftLow he]
    omega
  have hhandled : e₄.handled = e.handled + 4 := by
    simp only [e₄, handled_shiftLow h₃.waits, handled_shiftLow h₂.waits,
      handled_shiftLow h₁.waits, handled_shiftLow he.waits]
  have hout : e.finish.toList = e₄.out.toList ++ e₄.pending := by
    show e₄.shiftLow.out.toList = _
    simp [shiftLow, hlow, toList_pushTimes, pending]
  rw [hout]
  constructor
  · unfold lower at hlower
    rw [hlow] at hlower
    unfold lower
    omega
  · rw [← hhandled]
    have := h₄.waits
    simp only [List.length_append, pending, List.length_cons,
      List.length_replicate, Array.length_toList, handled]
    omega

end Lzma.RangeEncoder
end GameArchive
