/-
Block ciphers and the two ways this library runs them over a buffer: each
block alone, or chained, where a block is combined with the ciphertext of
the block before it.

A buffer is cut into whole blocks; what is left over at its end is kept as
it is. Both ways are stated on lists of blocks, so that a law about them is
an induction over the list.
-/
import GameArchive.Bytes

namespace GameArchive

/-- A keyed cipher on blocks of one size. -/
structure BlockCipher where
  blockSize : Nat
  encrypt : Bytes → Bytes
  decrypt : Bytes → Bytes

namespace BlockCipher

-- ============================================================ each alone

/-- Encrypts each block on its own. -/
def encryptEach (c : BlockCipher) (blocks : List Bytes) : List Bytes :=
  blocks.map c.encrypt

/-- Decrypts each block on its own. -/
def decryptEach (c : BlockCipher) (blocks : List Bytes) : List Bytes :=
  blocks.map c.decrypt

-- =============================================================== chained

/-- Encrypts blocks in a chain that starts from `iv`. -/
def encryptChain (c : BlockCipher) : (iv : Bytes) → List Bytes → List Bytes
  | _, [] => []
  | iv, block :: rest =>
    let sealed := c.encrypt (block.xor iv)
    sealed :: encryptChain c sealed rest

/-- Decrypts blocks in a chain that starts from `iv`. -/
def decryptChain (c : BlockCipher) : (iv : Bytes) → List Bytes → List Bytes
  | _, [] => []
  | iv, block :: rest => (c.decrypt block).xor iv :: decryptChain c block rest

end BlockCipher

/-- Runs `f` over the whole blocks of a buffer and keeps the bytes after
them. -/
def overBlocks (size : Nat) (f : List Bytes → List Bytes) (data : Bytes) : Bytes :=
  let count := data.length / size
  (f (data.pieces size count)).flatten ++ data.drop (count * size)

end GameArchive
