/-
Contents by their blocks.

Encrypted contents are decrypted stride by stride, each stride as a chain
that starts from zeros. A stride is a number of whole blocks; so the blocks
of the strides are those of the contents, and what is left over behind the
last of them is left over in the last stride. A block in the clear depends
on two stored blocks at most and on nothing behind them. What the first
bytes decrypt to is therefore what all bytes decrypt to, up to the last
block that they have whole.

Main statements: `deciphers_iff`, `Deciphers.take`.
-/
import GameArchive.Package.Container
import GameArchive.Proofs.Package.Keys

namespace GameArchive

open Bytes

/-- Each block is deciphered with the one before it, and the first with the
initial value. -/
theorem BlockCipher.getElem?_decryptChain (c : BlockCipher)
    (blocks : List Bytes) :
    ∀ (iv : Bytes) (i : Nat), (c.decryptChain iv blocks)[i]?
      = blocks[i]?.map fun block => (c.decrypt block).xor
          (if i = 0 then iv else blocks.getD (i - 1) []) := by
  induction blocks with
  | nil => exact fun _ _ => rfl
  | cons first rest ih =>
      intro iv i
      cases i with
      | zero => rfl
      | succ i =>
          rw [decryptChain, List.getElem?_cons_succ, ih,
            List.getElem?_cons_succ, if_neg (Nat.succ_ne_zero i)]
          cases i with
          | zero => rfl
          | succ i => rfl

/-- A block of a chain over a buffer: what it decrypts to, and the block
before it. -/
theorem slice_overBlocks_decryptChain {c : BlockCipher} (hc : c.Lawful)
    {iv : Bytes} (hiv : iv.length = c.blockSize) {data : Bytes} {i : Nat}
    (hi : i < data.length / c.blockSize) :
    slice (overBlocks c.blockSize (c.decryptChain iv) data)
        (i * c.blockSize) c.blockSize
      = (c.decrypt (data.slice (i * c.blockSize) c.blockSize)).xor
          (if i = 0 then iv
            else data.slice ((i - 1) * c.blockSize) c.blockSize) := by
  have hkeeps : KeepsShape c.blockSize (c.decryptChain iv) :=
    ⟨fun blocks => BlockCipher.length_decryptChain blocks iv,
      fun hblocks => BlockCipher.allOfSize_decryptChain hc hblocks hiv⟩
  have hmade := congrArg (·[i]?) (pieces_overBlocks hkeeps data)
  have hbefore : i - 1 < data.length / c.blockSize := by omega
  simpa [pieces_eq_map, BlockCipher.getElem?_decryptChain, hi, hbefore,
    List.getD_eq_getElem?_getD] using hmade

namespace Package

-- ================================================================= blocks

/-- What the block number `i` of stored contents is combined with: zeros
where a stride begins, and the block before it elsewhere. -/
def carried (stored : Bytes) (i : Nat) : Bytes :=
  if i * 16 % 0x10000 = 0 then zeros 16 else stored.slice ((i - 1) * 16) 16

/-- What stored contents are in the clear. Whole blocks are decrypted and
combined; the bytes behind the last of them stay. -/
structure Deciphers (key stored clear : Bytes) : Prop where
  length_eq : clear.length = stored.length
  block : ∀ i, i * 16 + 16 ≤ stored.length →
    clear.slice (i * 16) 16
      = ((Cipher.rijndael.keyed key).decrypt (stored.slice (i * 16) 16)).xor
          (carried stored i)
  rest : clear.drop (stored.length / 16 * 16)
    = stored.drop (stored.length / 16 * 16)

namespace Deciphers

variable {key stored clear : Bytes}

/-- The blocks and what is behind them are all there is. -/
theorem unique {other : Bytes} (h : Deciphers key stored clear)
    (hother : Deciphers key stored other) : clear = other := by
  have hblocks : pieces 16 (stored.length / 16) clear
      = pieces 16 (stored.length / 16) other := by
    rw [pieces_eq_map, pieces_eq_map]
    refine List.map_congr_left fun i hi => ?_
    have hwhole : i * 16 + 16 ≤ stored.length := by
      have hlt := List.mem_range.mp hi
      omega
    rw [h.block i hwhole, hother.block i hwhole]
  calc clear
      = (pieces 16 (stored.length / 16) clear).flatten
          ++ clear.drop (stored.length / 16 * 16) :=
        (flatten_pieces_append ..).symm
    _ = (pieces 16 (stored.length / 16) other).flatten
          ++ other.drop (stored.length / 16 * 16) := by
        rw [hblocks, h.rest, hother.rest]
    _ = other := flatten_pieces_append ..

/-- The first bytes decrypt to the first blocks; what they have of the
next block stays as it is stored. -/
theorem take (h : Deciphers key stored clear) {n : Nat}
    (hn : n ≤ stored.length) :
    Deciphers key (stored.take n)
      (clear.take (n / 16 * 16) ++ (stored.take n).drop (n / 16 * 16)) := by
  have hlength := h.length_eq
  have hfirst : (clear.take (n / 16 * 16)).length = n / 16 * 16 := by
    rw [List.length_take]
    omega
  have hstored : (stored.take n).length = n := by
    rw [List.length_take]
    omega
  refine ⟨?_, fun i hi => ?_, ?_⟩
  · rw [List.length_append, hfirst, List.length_drop, hstored]
    omega
  · rw [hstored] at hi
    have hcarried : carried (stored.take n) i = carried stored i := by
      unfold carried
      rw [slice_take stored (by omega)]
    rw [slice_left _ (by omega), slice_take clear (by omega),
      slice_take stored hi, hcarried, h.block i (by omega)]
  · rw [hstored]
    exact List.drop_left' hfirst

-- ================================================================ strides

theorem nil (key : Bytes) : Deciphers key [] [] :=
  ⟨rfl, fun _ hi => absurd hi (Nat.not_succ_le_zero _), rfl⟩

/-- One stride is one chain. -/
theorem stride (key : Bytes) {data : Bytes} (hdata : data.length ≤ 0x10000) :
    Deciphers key data (Key.decipher key data) where
  length_eq := Key.length_decipher key data
  block i hi := by
    have hchain := slice_overBlocks_decryptChain
      (Cipher.rijndael.lawful_keyed key) (length_zeros 16)
      (show i < data.length / 16 by omega)
    have hstart : i * 16 % 0x10000 = 0 ↔ i = 0 := by omega
    unfold carried
    simp only [hstart]
    exact hchain
  rest := drop_overBlocks
    (Cipher.keepsShape_decryptChain .rijndael (length_zeros 16) key) data

/-- A chain begins anew behind a whole stride. -/
theorem append {later clearLater : Bytes} (h : Deciphers key stored clear)
    (hlater : Deciphers key later clearLater)
    (hstride : stored.length = 0x10000) :
    Deciphers key (stored ++ later) (clear ++ clearLater) := by
  have hclear : clear.length = 0x10000 := h.length_eq.trans hstride
  refine ⟨?_, fun i hi => ?_, ?_⟩
  · rw [List.length_append, List.length_append, h.length_eq,
      hlater.length_eq]
  · rw [List.length_append] at hi
    -- A block lies in the first stride, or it is one of those behind it, where
    -- the chain has begun anew.
    by_cases hfront : i * 16 + 16 ≤ stored.length
    · have hcarried : carried (stored ++ later) i = carried stored i := by
        unfold carried
        rw [slice_left later (by omega)]
      rw [slice_left _ (by omega), slice_left _ hfront, hcarried,
        h.block i hfront]
    · obtain ⟨j, rfl⟩ : ∃ j, i = 0x1000 + j := ⟨i - 0x1000, by omega⟩
      have hplace : (0x1000 + j) * 16 = 0x10000 + j * 16 := by omega
      have hcarried : carried (stored ++ later) (0x1000 + j)
          = carried later j := by
        unfold carried
        by_cases hstart : j * 16 % 0x10000 = 0
        · rw [if_pos (by omega), if_pos hstart]
        · have hbefore : (0x1000 + j - 1) * 16
              = 0x10000 + (j - 1) * 16 := by omega
          rw [if_neg (by omega), if_neg hstart, hbefore,
            slice_behind hstride]
      rw [hplace, slice_behind hclear, slice_behind hstride, hcarried,
        hlater.block j (by omega)]
  · have hwhole : (stored ++ later).length / 16 * 16
        = 0x10000 + later.length / 16 * 16 := by
      rw [List.length_append]
      omega
    rw [hwhole, drop_behind hclear, drop_behind hstride, hlater.rest]

/-- If pieces are deciphered for themselves, so are the blocks of the whole. -/
theorem pieces (key : Bytes) (count : Nat) :
    ∀ {data : Bytes}, data.length ≤ count * 0x10000 →
      Deciphers key data
        ((Bytes.pieces 0x10000 count data).flatMap (Key.decipher key)) := by
  induction count with
  | zero =>
      intro data hdata
      rw [List.length_eq_zero_iff.mp (by omega : data.length = 0)]
      exact nil key
  | succ count ih =>
      intro data hdata
      have hlater := @ih (data.drop 0x10000)
        (by rw [List.length_drop]; omega)
      rw [Bytes.pieces, List.flatMap_cons]
      -- Either the first stride is whole, or there is nothing behind it.
      rcases Nat.le_total 0x10000 data.length with hwhole | hshort
      · have hfirst : (data.take 0x10000).length = 0x10000 := by
          rw [List.length_take]
          omega
        have hboth := (stride key (Nat.le_of_eq hfirst)).append hlater hfirst
        rwa [List.take_append_drop] at hboth
      · rw [List.drop_of_length_le hshort] at hlater ⊢
        rw [List.length_eq_zero_iff.mp hlater.length_eq, List.append_nil,
          List.take_of_length_le hshort]
        exact stride key hshort

end Deciphers

namespace Container

/-- Deciphering stride by stride deciphers the whole. -/
theorem deciphers_decipherStrides (key data : Bytes) :
    Deciphers key data (decipherStrides key data) := by
  refine Deciphers.pieces key _ ?_
  have hdiv := Nat.lt_div_mul_add (a := data.length + (strideSize - 1))
    (show 0 < strideSize by decide)
  unfold strideSize at hdiv ⊢
  omega

/-- Decryption by strides is what decryption by blocks says. -/
theorem deciphers_iff {key stored clear : Bytes} :
    Deciphers key stored clear ↔ clear = decipherStrides key stored := by
  refine ⟨fun h => h.unique (deciphers_decipherStrides key stored), ?_⟩
  rintro rfl
  exact deciphers_decipherStrides key stored

@[simp] theorem length_decipherStrides (key data : Bytes) :
    (decipherStrides key data).length = data.length :=
  (deciphers_decipherStrides key data).length_eq

/-- Of data that are cut short, whole blocks are deciphered as before, and the
rest is left as it is. -/
theorem decipherStrides_take (key : Bytes) {stored : Bytes} {n : Nat}
    (hn : n ≤ stored.length) :
    decipherStrides key (stored.take n)
      = (decipherStrides key stored).take (n / 16 * 16)
        ++ (stored.take n).drop (n / 16 * 16) :=
  (deciphers_iff.mp ((deciphers_decipherStrides key stored).take hn)).symm

end Container
end Package
end GameArchive
