/-
Decrypting what was encrypted.

All four ciphers are lawful and run in one of two modes, each of which
undoes itself; so decryption gives back any buffer, blocks and all, and
keeps its length. Buffer and key are checked in the same way in both
directions.

Main statement: `decrypt_encrypt`.
-/
import GameArchive.Cipher
import GameArchive.Proofs.Cipher.Aes
import GameArchive.Proofs.Cipher.Blowfish
import GameArchive.Proofs.Cipher.Des

namespace GameArchive.Cipher

theorem blockSize_keyed (c : Cipher) (key : Bytes) :
    (c.keyed key).blockSize = c.blockSize := by
  cases c <;> rfl

/-- Each cipher is undone by its own inverse, under any key. -/
theorem lawful_keyed (c : Cipher) (key : Bytes) : (c.keyed key).Lawful := by
  cases c with
  | des => exact Des.lawful_cipher _
  | aes => exact Aes.lawful_cipher _
  | blowfish => exact Blowfish.lawful_cipher _
  | rijndael => exact Aes.lawful_cipher _

/-- Encrypted one by one, blocks stay blocks. -/
theorem keepsShape_encryptEach (c : Cipher) (key : Bytes) :
    KeepsShape c.blockSize (c.keyed key).encryptEach where
  length_eq _ := List.length_map ..
  allOfSize {blocks} _ := by
    rw [← blockSize_keyed c key]
    exact BlockCipher.allOfSize_encryptEach (c.lawful_keyed key) blocks

/-- Encrypted in a chain, blocks stay blocks, however the chain begins. -/
theorem keepsShape_encryptChain (c : Cipher) (iv key : Bytes) :
    KeepsShape c.blockSize ((c.keyed key).encryptChain iv) where
  length_eq blocks := BlockCipher.length_encryptChain blocks iv
  allOfSize {blocks} _ := by
    rw [← blockSize_keyed c key]
    exact BlockCipher.allOfSize_encryptChain (c.lawful_keyed key) blocks iv

theorem keepsShape_decryptEach (c : Cipher) (key : Bytes) :
    KeepsShape c.blockSize (c.keyed key).decryptEach where
  length_eq _ := List.length_map ..
  allOfSize {blocks} _ := by
    rw [← blockSize_keyed c key]
    exact BlockCipher.allOfSize_decryptEach (c.lawful_keyed key) blocks

/-- Decrypted in a chain, blocks stay blocks if the chain begins with a
block. -/
theorem keepsShape_decryptChain (c : Cipher) {iv : Bytes}
    (hiv : iv.length = c.blockSize) (key : Bytes) :
    KeepsShape c.blockSize ((c.keyed key).decryptChain iv) where
  length_eq blocks := BlockCipher.length_decryptChain blocks iv
  allOfSize {blocks} hblocks := by
    rw [← blockSize_keyed c key] at hblocks hiv ⊢
    exact BlockCipher.allOfSize_decryptChain (c.lawful_keyed key) hblocks hiv

-- =================================================================== modes

/-- The initial vector has the length of a block of the ciphers that chain. -/
theorem blockSize_of_chains {c : Cipher} (h : c.chains = true) :
    c.blockSize = 16 := by
  cases c with
  | aes | rijndael => rfl
  | des | blowfish => cases h

/-- What encryption does to blocks. -/
def encryptMode (c : Cipher) (iv key : Bytes) : List Bytes → List Bytes :=
  if c.chains then (c.keyed key).encryptChain iv
  else (c.keyed key).encryptEach

/-- What decryption does to blocks. -/
def decryptMode (c : Cipher) (iv key : Bytes) : List Bytes → List Bytes :=
  if c.chains then (c.keyed key).decryptChain iv
  else (c.keyed key).decryptEach

section

variable (c : Cipher) (iv data key : Bytes)

/-- A buffer is encrypted by running the mode of its cipher over its blocks. -/
theorem encryptBlocks_eq : c.encryptBlocks iv data key
    = overBlocks c.blockSize (c.encryptMode iv key) data := by
  unfold encryptBlocks encryptMode
  split <;> rfl

/-- A buffer is decrypted by running the mode of its cipher over its blocks. -/
theorem decryptBlocks_eq : c.decryptBlocks iv data key
    = overBlocks c.blockSize (c.decryptMode iv key) data := by
  unfold decryptBlocks decryptMode
  split <;> rfl

theorem keepsShape_encryptMode :
    KeepsShape c.blockSize (c.encryptMode iv key) := by
  unfold encryptMode
  split
  · exact keepsShape_encryptChain c iv key
  · exact keepsShape_encryptEach c key

/-- A buffer stays as long as it is when it is encrypted. -/
@[simp] theorem length_encryptBlocks :
    (c.encryptBlocks iv data key).length = data.length := by
  rw [encryptBlocks_eq]
  exact length_overBlocks (keepsShape_encryptMode c iv key) data

end

section

variable (c : Cipher) {iv : Bytes} (hiv : iv.length = 16) (key : Bytes)

include hiv

/-- Either mode of decryption keeps the shape of the row of blocks. -/
theorem keepsShape_decryptMode :
    KeepsShape c.blockSize (c.decryptMode iv key) := by
  unfold decryptMode
  split
  case isTrue hchains =>
      exact keepsShape_decryptChain c
        (hiv.trans (blockSize_of_chains hchains).symm) key
  case isFalse => exact keepsShape_decryptEach c key

/-- Each mode is undone by that of the other direction. -/
theorem decryptMode_encryptMode {blocks : List Bytes}
    (hblocks : AllOfSize c.blockSize blocks) :
    c.decryptMode iv key (c.encryptMode iv key blocks) = blocks := by
  have hlawful := c.lawful_keyed key
  unfold decryptMode encryptMode
  rw [← blockSize_keyed c key] at hblocks
  split
  case isTrue hchains =>
      have hsize := (blockSize_keyed c key).trans (blockSize_of_chains hchains)
      exact BlockCipher.decryptChain_encryptChain hlawful hblocks
        (hiv.trans hsize.symm)
  case isFalse =>
      exact BlockCipher.decryptEach_encryptEach hlawful hblocks

theorem encryptMode_decryptMode {blocks : List Bytes}
    (hblocks : AllOfSize c.blockSize blocks) :
    c.encryptMode iv key (c.decryptMode iv key blocks) = blocks := by
  have hlawful := c.lawful_keyed key
  unfold decryptMode encryptMode
  rw [← blockSize_keyed c key] at hblocks
  split
  case isTrue hchains =>
      have hsize := (blockSize_keyed c key).trans (blockSize_of_chains hchains)
      exact BlockCipher.encryptChain_decryptChain hlawful hblocks
        (hiv.trans hsize.symm)
  case isFalse =>
      exact BlockCipher.encryptEach_decryptEach hlawful hblocks

end

theorem length_decryptBlocks (c : Cipher) {iv : Bytes}
    (hiv : iv.length = 16) (data key : Bytes) :
    (c.decryptBlocks iv data key).length = data.length := by
  rw [decryptBlocks_eq]
  exact length_overBlocks (keepsShape_decryptMode c hiv key) data

/-- Decryption gives back a buffer, blocks and what is left over. -/
theorem decryptBlocks_encryptBlocks (c : Cipher) {iv : Bytes}
    (hiv : iv.length = 16) (data key : Bytes) :
    c.decryptBlocks iv (c.encryptBlocks iv data key) key = data := by
  rw [encryptBlocks_eq, decryptBlocks_eq]
  exact overBlocks_overBlocks (keepsShape_encryptMode c iv key)
    (fun hblocks => decryptMode_encryptMode c hiv key hblocks) data

-- =============================================================== checking

/-- Only empty buffers and keys of a wrong length are refused. -/
theorem check_ok_iff {c : Cipher} {data key : Bytes} :
    c.check data key = .ok () ↔ data ≠ [] ∧ c.acceptsKey key.length := by
  unfold check
  cases data with
  | nil => simp
  | cons b rest => simp

/-- A buffer that is not refused is encrypted, and encryption cannot fail
otherwise. -/
theorem encrypt_ok_iff {c : Cipher} {data key out : Bytes} :
    c.encrypt data key = .ok out
      ↔ (data ≠ [] ∧ c.acceptsKey key.length)
        ∧ out = c.encryptBlocks zeroVector data key := by
  rw [← check_ok_iff]
  unfold encrypt
  cases c.check data key with
  | error fault => simp [bind, Except.bind]
  | ok => simp [bind, Except.bind, pure, Except.pure, eq_comm]

/-- A buffer that is not refused is decrypted, and decryption cannot fail
otherwise. -/
theorem decrypt_ok_iff {c : Cipher} {data key out : Bytes} :
    c.decrypt data key = .ok out
      ↔ (data ≠ [] ∧ c.acceptsKey key.length)
        ∧ out = c.decryptBlocks zeroVector data key := by
  rw [← check_ok_iff]
  unfold decrypt decryptFrom
  cases c.check data key with
  | error fault => simp [bind, Except.bind]
  | ok => simp [bind, Except.bind, pure, Except.pure, eq_comm]

/-- What was encrypted is decrypted under the same key. -/
theorem decrypt_encrypt {c : Cipher} {data key out : Bytes}
    (h : c.encrypt data key = .ok out) : c.decrypt out key = .ok data := by
  obtain ⟨⟨hdata, hkey⟩, rfl⟩ := encrypt_ok_iff.mp h
  have hout : c.encryptBlocks zeroVector data key ≠ [] := by
    rwa [← List.length_pos_iff, length_encryptBlocks, List.length_pos_iff]
  exact decrypt_ok_iff.mpr ⟨⟨hout, hkey⟩,
    (decryptBlocks_encryptBlocks c (Bytes.length_zeros 16) data key).symm⟩

end GameArchive.Cipher
