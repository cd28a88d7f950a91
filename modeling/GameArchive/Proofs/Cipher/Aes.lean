/-
Undoing AES.

Each step of a round has its inverse, so a whole run is undone from its end
to its beginning, whatever the round keys are. Three of the four steps only
move bytes about or add to them. The fourth, mixing, is linear: that its
fourth power is the identity comes out by cancelling sums, once doubling is
known to be additive.

Main statement: `lawful_cipher`.
-/
import GameArchive.Cipher.Aes
import GameArchive.Proofs.Cipher.Mode

namespace GameArchive.Aes

-- ======================================================== four of a kind

namespace Quad

/-- What undoes a function on each of the four undoes it on all of them. -/
theorem map_map_undo {α : Type} {f g : α → α} (h : ∀ x, f (g x) = x)
    (x : Quad α) : (x.map g).map f = x := by
  simp only [map, h]

/-- What cancels on each of the four cancels on all of them. -/
theorem cancels_zipWith {α : Type} {add : α → α → α} (h : Cancels add) :
    Cancels (zipWith add) := by
  intro x y
  simp only [zipWith, h _ _]

end Quad

-- ================================================================= bytes

/-- A function that finds the place of each entry of a table undoes the
table. -/
theorem undo_table {table : Array UInt8} {f : UInt8 → UInt8}
    (h : table.toList.map (fun y => (f y).toNat) = List.range 256)
    (x : UInt8) : f (table.getD x.toNat 0) = x := by
  have hsize : table.size = 256 := by
    have hlength := congrArg List.length h
    rwa [List.length_map, List.length_range, Array.length_toList] at hlength
  have hx : x.toNat < table.size := by
    rw [hsize]
    exact x.toNat_lt
  have hentry := congrArg (fun places => places[x.toNat]?) h
  simp only [List.getElem?_map, Array.getElem?_toList,
    Array.getElem?_eq_getElem hx, Option.map_some,
    List.getElem?_range x.toNat_lt] at hentry
  rw [Array.getD_eq_getD_getElem?, Array.getElem?_eq_getElem hx]
  exact UInt8.toNat_inj.mp (Option.some.inj hentry)

/-- Each of the two tables has the places of the other one; this is found out by
going through all 256 bytes. -/
theorem unsubstitute_substitute (x : UInt8) :
    unsubstitute (substitute x) = x := by
  have hplaces : substitution.toList.map
      (fun y => (unsubstitute y).toNat) = List.range 256 := by
    decide +kernel
  rw [substitute, undo_table hplaces]

theorem substitute_unsubstitute (x : UInt8) :
    substitute (unsubstitute x) = x := by
  have hplaces : inverseSubstitution.toList.map
      (fun y => (substitute y).toNat) = List.range 256 := by
    decide +kernel
  rw [unsubstitute, undo_table hplaces]

theorem xor_left_comm (x y z : UInt8) :
    x ^^^ (y ^^^ z) = y ^^^ (x ^^^ z) := by
  rw [← UInt8.xor_assoc, UInt8.xor_comm x, UInt8.xor_assoc]

theorem xor_self_left (x y : UInt8) : x ^^^ (x ^^^ y) = y := by
  rw [← UInt8.xor_assoc, UInt8.xor_self, UInt8.zero_xor]

/-- Doubling shifts the byte and adds the polynomial of the field for the
bit that is shifted out. -/
theorem double_eq (x : UInt8) :
    double x = (x <<< 1) ^^^ (if x.toBitVec.msb then 0x1b else 0) := by
  have hall : ∀ n < 256, double (UInt8.ofNat n) = (UInt8.ofNat n <<< 1)
      ^^^ (if (UInt8.ofNat n).toBitVec.msb then 0x1b else 0) := by
    decide +kernel
  have hx := hall x.toNat x.toNat_lt
  rwa [UInt8.ofNat_toNat] at hx

/-- Doubling is additive: either the bit that is shifted out is that of one
summand, or both or none have it. -/
theorem double_xor (x y : UInt8) :
    double (x ^^^ y) = double x ^^^ double y := by
  rw [double_eq, double_eq x, double_eq y, UInt8.shiftLeft_xor,
    UInt8.toBitVec_xor, BitVec.msb_xor]
  cases x.toBitVec.msb <;> cases y.toBitVec.msb <;>
    simp [UInt8.xor_assoc, UInt8.xor_comm, xor_left_comm]

-- =============================================================== columns

namespace Column

/-- One byte of a mixed column. -/
def mixRow (p q r s : UInt8) : UInt8 :=
  double p ^^^ (double q ^^^ q) ^^^ r ^^^ s

/-- A column is mixed row by row. -/
theorem mix_eq (x : Column) :
    x.mix = ⟨mixRow x.a x.b x.c x.d, mixRow x.b x.c x.d x.a,
      mixRow x.c x.d x.a x.b, mixRow x.d x.a x.b x.c⟩ := rfl

/-- Mixed twice, a byte has four times itself and four times the byte two
places on added to it; all else cancels. -/
theorem mixRow_mixRow (p q r s : UInt8) :
    mixRow (mixRow p q r s) (mixRow q r s p) (mixRow r s p q)
        (mixRow s p q r)
      = p ^^^ double (double (p ^^^ r)) := by
  unfold mixRow
  simp only [double_xor, UInt8.xor_assoc, UInt8.xor_comm, xor_left_comm,
    xor_self_left]

/-- The square of mixing. -/
def square (x : Column) : Column :=
  ⟨x.a ^^^ double (double (x.a ^^^ x.c)),
    x.b ^^^ double (double (x.b ^^^ x.d)),
    x.c ^^^ double (double (x.a ^^^ x.c)),
    x.d ^^^ double (double (x.b ^^^ x.d))⟩

/-- Mixing twice is the square, in which only two bytes of a row count. -/
theorem mix_mix (x : Column) : x.mix.mix = x.square := by
  simp only [mix_eq, mixRow_mixRow, square, UInt8.xor_comm]

/-- Undoing is mixing after the square: the third power of mixing. -/
theorem unmix_eq (x : Column) : x.unmix = x.square.mix := rfl

/-- Four times the sum of two bytes is added to both, so their sum stays,
and adding it again takes it away. -/
theorem square_square (x : Column) : x.square.square = x := by
  have hkept : ∀ p r t : UInt8, (p ^^^ t) ^^^ (r ^^^ t) = p ^^^ r := by
    intro p r t
    rw [UInt8.xor_assoc, xor_left_comm t, UInt8.xor_self, UInt8.xor_zero]
  simp only [square, hkept, cancels_xor_byte _ _]

/-- The square is a power of mixing, so the two can change places. -/
theorem square_mix (x : Column) : x.mix.square = x.square.mix := by
  rw [← mix_mix, ← mix_mix]

/-- The fourth power of mixing is the identity. -/
theorem unmix_mix (x : Column) : x.mix.unmix = x := by
  rw [unmix_eq, square_mix, mix_mix, square_square]

theorem mix_unmix (x : Column) : x.unmix.mix = x := by
  rw [unmix_eq, mix_mix, square_square]

end Column

-- ================================================================= steps

namespace State

/-- A round key that was added is taken away by adding it again. -/
theorem cancels_xor : Cancels xor :=
  Quad.cancels_zipWith (Quad.cancels_zipWith cancels_xor_byte)

theorem unshiftRows_shiftRows (s : State) :
    s.shiftRows.unshiftRows = s := rfl

theorem shiftRows_unshiftRows (s : State) :
    s.unshiftRows.shiftRows = s := rfl

/-- Scrambling is undone: rows first, then bytes. -/
theorem unscramble_scramble (s : State) : s.scramble.unscramble = s := by
  rw [unscramble, scramble, unshiftRows_shiftRows,
    Quad.map_map_undo (Quad.map_map_undo unsubstitute_substitute)]

/-- What was undone is scrambled again: bytes first, then rows. -/
theorem scramble_unscramble (s : State) : s.unscramble.scramble = s := by
  rw [unscramble, scramble,
    Quad.map_map_undo (Quad.map_map_undo substitute_unsubstitute),
    shiftRows_unshiftRows]

/-- A full round undone. -/
theorem unround_round (s key : State) : (s.round key).unround key = s := by
  rw [unround, round, cancels_xor, Quad.map_map_undo Column.unmix_mix,
    unscramble_scramble]

/-- What a round was undone to, the round makes again. -/
theorem round_unround (s key : State) : (s.unround key).round key = s := by
  rw [unround, round, scramble_unscramble, Quad.map_map_undo Column.mix_unmix,
    cancels_xor]

end State

-- ================================================================= a run

namespace KeySchedule

/-- Decryption undoes encryption, whatever the round keys are. -/
theorem decrypt_encrypt (k : KeySchedule) (s : State) :
    k.decrypt (k.encrypt s) = s := by
  have hrounds : k.middle.foldr (fun key t => t.unround key)
      (k.middle.foldl State.round (s.xor k.first)) = s.xor k.first := by
    refine foldr_foldl_undo (e := id) (fun t key => ?_) k.middle _
    exact t.unround_round key
  unfold decrypt encrypt
  rw [State.cancels_xor, State.unscramble_scramble, hrounds,
    State.cancels_xor]

/-- Encryption undoes decryption; the rounds are redone in their order. -/
theorem encrypt_decrypt (k : KeySchedule) (s : State) :
    k.encrypt (k.decrypt s) = s := by
  unfold decrypt encrypt
  rw [State.cancels_xor, foldl_foldr_undo State.round_unround,
    State.scramble_unscramble, State.cancels_xor]

end KeySchedule

-- ================================================================ blocks

/-- A block is read from the bytes it was written as. -/
theorem ofBytes_toBytes (s : State) : State.ofBytes s.toBytes = s := rfl

/-- Sixteen bytes are written as they were read. -/
theorem toBytes_ofBytes {block : Bytes} (h : block.length = 16) :
    (State.ofBytes block).toBytes = block := by
  match block, h with
  | [_, _, _, _, _, _, _, _, _, _, _, _, _, _, _, _], _ => rfl

/-- AES is undone by its inverse, under any key. -/
theorem lawful_cipher (key : Bytes) : (cipher key).Lawful :=
  BlockCipher.lawful_of_state (fun _ => rfl) ofBytes_toBytes toBytes_ofBytes
    (KeySchedule.ofKey key).decrypt_encrypt
    (KeySchedule.ofKey key).encrypt_decrypt

end GameArchive.Aes
