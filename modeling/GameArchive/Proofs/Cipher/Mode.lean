/-
Running a block cipher forth and back.

All that the two modes need of a cipher is that it maps blocks to blocks
and that its two directions undo each other. A chain is then undone block
by block, since the block that is added is the ciphertext before it in
both directions. A buffer is its whole blocks and what is left over; a mode
that keeps the row of blocks in shape keeps the length of the buffer, so
both directions cut it at the same places.

A mode that takes the blocks one after the other does to the first of them
what it does to a buffer of these alone.

Main statements: `overBlocks_overBlocks`, `overBlocks_take`.
-/
import GameArchive.Proofs.Bytes.Pieces
import GameArchive.Proofs.Cipher.Undoing

namespace GameArchive

open Bytes

-- ================================================================= blocks

/-- Every one of these byte strings is as long as a block. -/
def AllOfSize (size : Nat) (blocks : List Bytes) : Prop :=
  ∀ block ∈ blocks, block.length = size

theorem AllOfSize.nil (size : Nat) : AllOfSize size [] := by
  simp [AllOfSize]

theorem AllOfSize.cons_iff {size : Nat} {block : Bytes}
    {rest : List Bytes} :
    AllOfSize size (block :: rest)
      ↔ block.length = size ∧ AllOfSize size rest :=
  List.forall_mem_cons

/-- Joined blocks take up their size for each. -/
theorem AllOfSize.length_flatten {size : Nat} {blocks : List Bytes}
    (h : AllOfSize size blocks) :
    blocks.flatten.length = blocks.length * size := by
  induction blocks with
  | nil => simp
  | cons block rest ih =>
      obtain ⟨hblock, hrest⟩ := AllOfSize.cons_iff.mp h
      rw [List.flatten_cons, List.length_append, hblock, ih hrest,
        List.length_cons, Nat.succ_mul, Nat.add_comm]

theorem length_pieces (size : Nat) :
    ∀ (count : Nat) (data : Bytes), (pieces size count data).length = count
  | 0, _ => rfl
  | count + 1, _ => congrArg (· + 1) (length_pieces size count _)

/-- Pieces that fit into the data are all whole. -/
theorem allOfSize_pieces {size : Nat} :
    ∀ {count : Nat} {data : Bytes}, count * size ≤ data.length →
      AllOfSize size (pieces size count data) := by
  intro count
  induction count with
  | zero => exact fun _ => AllOfSize.nil size
  | succ count ih =>
      intro data hdata
      rw [Nat.succ_mul] at hdata
      refine AllOfSize.cons_iff.mpr ⟨?_, ih ?_⟩
      · rw [List.length_take]
        omega
      · rw [List.length_drop]
        omega

/-- Whole pieces and what is left over are the data. -/
theorem flatten_pieces_append (size count : Nat) (data : Bytes) :
    (pieces size count data).flatten ++ data.drop (count * size) = data := by
  induction count generalizing data with
  | zero => simp [pieces]
  | succ count ih =>
      have hdrop : data.drop ((count + 1) * size)
          = (data.drop size).drop (count * size) := by
        rw [List.drop_drop, Nat.succ_mul, Nat.add_comm]
      rw [pieces, List.flatten_cons, List.append_assoc, hdrop, ih,
        List.take_append_drop]

/-- Blocks that were joined are cut again. -/
theorem pieces_flatten {size : Nat} {blocks : List Bytes}
    (h : AllOfSize size blocks) (rest : Bytes) :
    pieces size blocks.length (blocks.flatten ++ rest) = blocks := by
  induction blocks with
  | nil => rfl
  | cons block blocks ih =>
      obtain ⟨rfl, hrest⟩ := AllOfSize.cons_iff.mp h
      rw [List.length_cons, pieces, List.flatten_cons, List.append_assoc,
        List.take_left, List.drop_left, ih hrest]

/-- The first pieces are the pieces of what they take up. -/
theorem pieces_take {size n count : Nat} (hn : n ≤ count) (data : Bytes) :
    pieces size n (data.take (n * size)) = (pieces size count data).take n := by
  rw [pieces_eq_map, pieces_eq_map, ← List.map_take, List.take_range,
    Nat.min_eq_left hn]
  refine List.map_congr_left fun k hk => slice_take data ?_
  rw [← Nat.succ_mul]
  exact Nat.mul_le_mul_right size (List.mem_range.mp hk)

/-- The first of some joined blocks, joined. -/
theorem take_flatten_append {size n : Nat} {blocks : List Bytes}
    (h : AllOfSize size blocks) (hn : n ≤ blocks.length) (rest : Bytes) :
    (blocks.flatten ++ rest).take (n * size) = (blocks.take n).flatten := by
  have hfirst : AllOfSize size (blocks.take n) :=
    fun block hblock => h block (List.mem_of_mem_take hblock)
  have hlength := hfirst.length_flatten
  rw [List.length_take, Nat.min_eq_left hn] at hlength
  calc (blocks.flatten ++ rest).take (n * size)
      = ((blocks.take n).flatten
          ++ ((blocks.drop n).flatten ++ rest)).take (n * size) := by
        rw [← List.append_assoc, ← List.flatten_append,
          List.take_append_drop]
    _ = (blocks.take n).flatten := List.take_left' hlength

-- ==================================================== the two directions

namespace BlockCipher

variable {c : BlockCipher}

/-- The cipher with its two directions exchanged. -/
def flip (c : BlockCipher) : BlockCipher := ⟨c.blockSize, c.decrypt, c.encrypt⟩

/-- A lawful cipher stays lawful with its directions exchanged, so a law about
encryption is one about decryption. -/
theorem Lawful.flip (hc : c.Lawful) : c.flip.Lawful where
  length_encrypt := hc.length_decrypt
  length_decrypt := hc.length_encrypt
  decrypt_encrypt := hc.encrypt_decrypt
  encrypt_decrypt := hc.decrypt_encrypt

/-- Blocks that are encrypted one by one stay blocks. -/
theorem allOfSize_encryptEach (hc : c.Lawful) (blocks : List Bytes) :
    AllOfSize c.blockSize (c.encryptEach blocks) := by
  intro block hblock
  obtain ⟨plain, -, rfl⟩ := List.mem_map.mp hblock
  exact hc.length_encrypt plain

/-- Blocks that are encrypted one by one are decrypted one by one. -/
theorem decryptEach_encryptEach (hc : c.Lawful) {blocks : List Bytes}
    (hblocks : AllOfSize c.blockSize blocks) :
    c.decryptEach (c.encryptEach blocks) = blocks := by
  unfold decryptEach encryptEach
  rw [List.map_map]
  exact (List.map_congr_left fun block hblock =>
    hc.decrypt_encrypt (hblocks block hblock)).trans (List.map_id blocks)

-- Each block alone, encryption is the decryption of the exchanged cipher.
theorem allOfSize_decryptEach (hc : c.Lawful) (blocks : List Bytes) :
    AllOfSize c.blockSize (c.decryptEach blocks) :=
  allOfSize_encryptEach hc.flip blocks

theorem encryptEach_decryptEach (hc : c.Lawful) {blocks : List Bytes}
    (hblocks : AllOfSize c.blockSize blocks) :
    c.encryptEach (c.decryptEach blocks) = blocks :=
  decryptEach_encryptEach hc.flip hblocks

theorem length_xor_of_length_eq {a b : Bytes} (h : a.length = b.length) :
    (a.xor b).length = a.length := by
  unfold Bytes.xor
  rw [List.length_zipWith, h, Nat.min_self]

/-- What is added twice to bytes is gone. -/
theorem xor_xor_cancel {a b : Bytes} (h : a.length = b.length) :
    (a.xor b).xor b = a :=
  cancels_xor_byte.list h

theorem xor_zeros {a : Bytes} : ∀ {n : Nat}, a.length ≤ n →
    a.xor (Bytes.zeros n) = a := by
  induction a with
  | nil => exact fun _ => rfl
  | cons x a ih =>
      intro n hn
      cases n with
      | zero => cases hn
      | succ n =>
          have hrest := ih (Nat.le_of_succ_le_succ hn)
          unfold Bytes.xor Bytes.zeros at hrest ⊢
          rw [List.replicate_succ, List.zipWith_cons_cons, hrest,
            UInt8.xor_zero]

/-- A chain has as many blocks as it had. -/
theorem length_encryptChain :
    ∀ (blocks : List Bytes) (iv : Bytes),
      (c.encryptChain iv blocks).length = blocks.length
  | [], _ => rfl
  | _ :: rest, _ => congrArg (· + 1) (length_encryptChain rest _)

/-- What a chain is encrypted to are blocks, as each comes from the cipher. -/
theorem allOfSize_encryptChain (hc : c.Lawful) (blocks : List Bytes) :
    ∀ iv, AllOfSize c.blockSize (c.encryptChain iv blocks) := by
  induction blocks with
  | nil => exact fun _ => AllOfSize.nil _
  | cons block rest ih =>
      exact fun iv =>
        AllOfSize.cons_iff.mpr ⟨hc.length_encrypt _, ih _⟩

/-- A chain is undone block by block: the ciphertext that was added to a
block is the one that stands before it. -/
theorem decryptChain_encryptChain (hc : c.Lawful) {blocks : List Bytes}
    (hblocks : AllOfSize c.blockSize blocks) :
    ∀ {iv : Bytes}, iv.length = c.blockSize →
      c.decryptChain iv (c.encryptChain iv blocks) = blocks := by
  induction blocks with
  | nil => exact fun _ => rfl
  | cons block rest ih =>
      intro iv hiv
      obtain ⟨hblock, hrest⟩ := AllOfSize.cons_iff.mp hblocks
      have hsame : block.length = iv.length := hblock.trans hiv.symm
      have hfirst : (c.decrypt (c.encrypt (block.xor iv))).xor iv
          = block := by
        rw [hc.decrypt_encrypt ((length_xor_of_length_eq hsame).trans hblock)]
        exact xor_xor_cancel hsame
      rw [encryptChain, decryptChain, hfirst,
        ih hrest (hc.length_encrypt _)]

theorem length_decryptChain :
    ∀ (blocks : List Bytes) (iv : Bytes),
      (c.decryptChain iv blocks).length = blocks.length
  | [], _ => rfl
  | _ :: rest, _ => congrArg (· + 1) (length_decryptChain rest _)

/-- What a chain is decrypted to are blocks, as each is a sum of two. -/
theorem allOfSize_decryptChain (hc : c.Lawful) {blocks : List Bytes}
    (hblocks : AllOfSize c.blockSize blocks) :
    ∀ {iv : Bytes}, iv.length = c.blockSize →
      AllOfSize c.blockSize (c.decryptChain iv blocks) := by
  induction blocks with
  | nil => exact fun _ => AllOfSize.nil _
  | cons block rest ih =>
      intro iv hiv
      obtain ⟨hblock, hrest⟩ := AllOfSize.cons_iff.mp hblocks
      have hplain := hc.length_decrypt block
      refine AllOfSize.cons_iff.mpr ⟨?_, ih hrest hblock⟩
      rw [length_xor_of_length_eq (hplain.trans hiv.symm), hplain]

/-- A chain is redone block by block as well: what is added to a block is the
ciphertext that had been taken from it. -/
theorem encryptChain_decryptChain (hc : c.Lawful) {blocks : List Bytes}
    (hblocks : AllOfSize c.blockSize blocks) :
    ∀ {iv : Bytes}, iv.length = c.blockSize →
      c.encryptChain iv (c.decryptChain iv blocks) = blocks := by
  induction blocks with
  | nil => exact fun _ => rfl
  | cons block rest ih =>
      intro iv hiv
      obtain ⟨hblock, hrest⟩ := AllOfSize.cons_iff.mp hblocks
      have hsame : (c.decrypt block).length = iv.length :=
        (hc.length_decrypt block).trans hiv.symm
      have hfirst : c.encrypt (((c.decrypt block).xor iv).xor iv)
          = block := by
        rw [xor_xor_cancel hsame, hc.encrypt_decrypt hblock]
      rw [decryptChain, encryptChain, hfirst, ih hrest hblock]

/-- The first blocks of a chain are decrypted without the others. -/
theorem decryptChain_take :
    ∀ (blocks : List Bytes) (iv : Bytes) (n : Nat),
      c.decryptChain iv (blocks.take n) = (c.decryptChain iv blocks).take n
  | [], iv, n => by rw [List.take_nil]; exact List.take_nil.symm
  | _ :: _, _, 0 => rfl
  | block :: rest, _, n + 1 =>
    congrArg (_ :: ·) (decryptChain_take rest block n)

end BlockCipher

-- ================================================================ buffers

section

variable {size : Nat} {f g : List Bytes → List Bytes}

/-- A mode that keeps rows of blocks in shape. -/
structure KeepsShape (size : Nat) (f : List Bytes → List Bytes) : Prop where
  length_eq : ∀ blocks, (f blocks).length = blocks.length
  allOfSize : ∀ {blocks : List Bytes}, AllOfSize size blocks →
    AllOfSize size (f blocks)

/-- A mode that keeps the row of blocks in shape keeps the length of the
buffer. -/
theorem length_overBlocks (hf : KeepsShape size f) (data : Bytes) :
    (overBlocks size f data).length = data.length := by
  have hwhole := Nat.div_mul_le_self data.length size
  have hblocks := allOfSize_pieces hwhole
  unfold overBlocks
  dsimp only
  rw [List.length_append, (hf.allOfSize hblocks).length_flatten,
    hf.length_eq, length_pieces, List.length_drop]
  omega

/-- The blocks of a buffer are those that the mode has made. -/
theorem pieces_overBlocks (hf : KeepsShape size f) (data : Bytes) :
    pieces size (data.length / size) (overBlocks size f data)
      = f (pieces size (data.length / size) data) := by
  have hblocks := allOfSize_pieces (Nat.div_mul_le_self data.length size)
  have hjoined := pieces_flatten (hf.allOfSize hblocks)
    (data.drop (data.length / size * size))
  rw [hf.length_eq, length_pieces] at hjoined
  exact hjoined

/-- What is left over behind the blocks is left alone. -/
theorem drop_overBlocks (hf : KeepsShape size f) (data : Bytes) :
    (overBlocks size f data).drop (data.length / size * size)
      = data.drop (data.length / size * size) := by
  have hblocks := allOfSize_pieces (Nat.div_mul_le_self data.length size)
  have hlength := (hf.allOfSize hblocks).length_flatten
  rw [hf.length_eq, length_pieces] at hlength
  exact List.drop_left' hlength

/-- A mode that undoes another on blocks undoes it on buffers. -/
theorem overBlocks_overBlocks (hf : KeepsShape size f)
    (hundo : ∀ {blocks : List Bytes}, AllOfSize size blocks →
      g (f blocks) = blocks) (data : Bytes) :
    overBlocks size g (overBlocks size f data) = data := by
  have hblocks := allOfSize_pieces (Nat.div_mul_le_self data.length size)
  -- Both directions find the same number of whole blocks.
  calc overBlocks size g (overBlocks size f data)
      = (g (pieces size (data.length / size)
            (overBlocks size f data))).flatten
          ++ (overBlocks size f data).drop (data.length / size * size) := by
        rw [overBlocks, length_overBlocks hf]
    _ = (pieces size (data.length / size) data).flatten
          ++ data.drop (data.length / size * size) := by
        rw [pieces_overBlocks hf, hundo hblocks, drop_overBlocks hf]
    _ = data := flatten_pieces_append ..

/-- A mode that does not look ahead does to the first blocks of a buffer
what it does to a buffer of these alone. -/
theorem overBlocks_take (hf : KeepsShape size f)
    (htake : ∀ blocks n, f (blocks.take n) = (f blocks).take n)
    (hsize : 0 < size) {data : Bytes} {n : Nat}
    (hn : n ≤ data.length / size) :
    overBlocks size f (data.take (n * size))
      = (overBlocks size f data).take (n * size) := by
  have hwhole := Nat.div_mul_le_self data.length size
  have hblocks := hf.allOfSize (allOfSize_pieces hwhole)
  have hle : n ≤ (f (pieces size (data.length / size) data)).length := by
    rwa [hf.length_eq, length_pieces]
  have hlength : (data.take (n * size)).length = n * size := by
    rw [List.length_take]
    exact Nat.min_eq_left
      (Nat.le_trans (Nat.mul_le_mul_right size hn) hwhole)
  calc overBlocks size f (data.take (n * size))
      = (f (pieces size n (data.take (n * size)))).flatten
          ++ (data.take (n * size)).drop (n * size) := by
        rw [overBlocks, hlength, Nat.mul_div_cancel n hsize]
    _ = ((f (pieces size (data.length / size) data)).take n).flatten := by
        rw [pieces_take hn, htake,
          List.drop_of_length_le (Nat.le_of_eq hlength), List.append_nil]
    _ = (overBlocks size f data).take (n * size) :=
        (take_flatten_append hblocks hle _).symm

/-- Where each block stands alone, a block of a buffer is treated like a
buffer of this block alone. -/
theorem overBlocks_slice {g : Bytes → Bytes}
    (hg : KeepsShape size (List.map g)) (hsize : 0 < size)
    {data : Bytes} {k : Nat} (hk : k < data.length / size) :
    overBlocks size (List.map g) (data.slice (k * size) size)
      = slice (overBlocks size (List.map g) data) (k * size) size := by
  have hwhole : k * size + size ≤ data.length := by
    rw [← Nat.succ_mul]
    exact Nat.le_trans (Nat.mul_le_mul_right size hk)
      (Nat.div_mul_le_self data.length size)
  have hlength : (data.slice (k * size) size).length = size := by
    rw [length_slice]
    omega
  have hblock : slice (overBlocks size (List.map g) data) (k * size) size
      = g (data.slice (k * size) size) := by
    have hmade := congrArg (·[k]?) (pieces_overBlocks hg data)
    simpa [pieces_eq_map, hk] using hmade
  have hle := Nat.le_of_eq hlength
  rw [hblock, overBlocks, hlength, Nat.div_self hsize]
  simp [pieces, List.take_of_length_le hle, List.drop_of_length_le hle]

end
end GameArchive
