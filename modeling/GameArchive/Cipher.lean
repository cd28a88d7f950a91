/-
The cipher engine of the archive layers.

A header names one of four ciphers by number. DES and Blowfish work block
by block, AES and Rijndael (which is AES under the first sixteen bytes of
the key) in a chain. Whole blocks are processed, a trailing partial block
is left as it is, and an empty buffer or an unusable key is an error.
-/
import GameArchive.Cipher.Aes
import GameArchive.Cipher.Des
import GameArchive.Cipher.Blowfish

namespace GameArchive

/-- The ciphers that a header can select. -/
inductive Cipher where
  | des
  | aes
  | blowfish
  | rijndael
deriving DecidableEq, Repr

namespace Cipher

-- ================================================================= names

/-- The cipher of a number, if there is one. -/
def ofId? (id : UInt8) : Option Cipher :=
  match id.toNat with
  | 1 => some .des
  | 2 => some .aes
  | 3 => some .blowfish
  | 4 => some .rijndael
  | _ => none

/-- The number of a cipher in headers. -/
def id : Cipher → UInt8
  | .des => 1
  | .aes => 2
  | .blowfish => 3
  | .rijndael => 4

/-- The name of a cipher in listings. -/
def name : Cipher → String
  | .des => "DES"
  | .aes => "AES"
  | .blowfish => "Blowfish"
  | .rijndael => "Rijndael"

/-- The block size in bytes. -/
def blockSize : Cipher → Nat
  | .des | .blowfish => 8
  | .aes | .rijndael => 16

-- ================================================================ errors

/-- Why a buffer cannot be processed. -/
inductive Fault where
  /-- There is nothing to process. -/
  | emptyBuffer
  /-- The cipher cannot be keyed with a key of this length. -/
  | badKey (cipher : Cipher) (length : Nat)
deriving DecidableEq, Repr

/-- What is wrong with a key of this length. -/
def keyComplaint (c : Cipher) (length : Nat) : String :=
  match c with
  | .des => s!"DES key too short: {length} bytes"
  | .aes => s!"invalid AES key length {length}"
  | .blowfish => s!"invalid Blowfish key length {length}"
  | .rijndael => s!"Rijndael key too short: {length} bytes"

/-- Whether a cipher can be keyed with a key of this length. -/
def acceptsKey (c : Cipher) (length : Nat) : Bool :=
  match c with
  | .des => 8 ≤ length
  | .aes => length = 16 || length = 24 || length = 32
  | .blowfish => 4 ≤ length && length ≤ 56
  | .rijndael => 16 ≤ length

-- ================================================================ engine

/-- The block cipher under an acceptable key. -/
def keyed (c : Cipher) (key : Bytes) : BlockCipher :=
  match c with
  | .des => Des.cipher (key.take 8)
  | .aes => Aes.cipher key
  | .blowfish => Blowfish.cipher key
  | .rijndael => Aes.cipher (key.take 16)

/-- Whether the blocks of a buffer are chained. -/
def chains : Cipher → Bool
  | .des | .blowfish => false
  | .aes | .rijndael => true

/-- The initial vector of a chain where none is given. -/
def zeroVector : Bytes := Bytes.zeros 16

/-- Checks buffer and key, in this order. -/
def check (c : Cipher) (data key : Bytes) : Except Fault Unit :=
  if data.isEmpty then .error .emptyBuffer
  else if c.acceptsKey key.length then .ok ()
  else .error (.badKey c key.length)

/-- Decrypts the whole blocks of a buffer under an acceptable key. -/
def decryptBlocks (c : Cipher) (iv data key : Bytes) : Bytes :=
  if c.chains then overBlocks c.blockSize ((c.keyed key).decryptChain iv) data
  else overBlocks c.blockSize (c.keyed key).decryptEach data

/-- Encrypts the whole blocks of a buffer under an acceptable key. -/
def encryptBlocks (c : Cipher) (iv data key : Bytes) : Bytes :=
  if c.chains then overBlocks c.blockSize ((c.keyed key).encryptChain iv) data
  else overBlocks c.blockSize (c.keyed key).encryptEach data

/-- Decrypts a buffer; `iv` starts the chain of the chaining ciphers. -/
def decryptFrom (c : Cipher) (iv data key : Bytes) : Except Fault Bytes := do
  c.check data key
  return c.decryptBlocks iv data key

/-- Decrypts a buffer, chains starting from zeros. -/
def decrypt (c : Cipher) (data key : Bytes) : Except Fault Bytes :=
  c.decryptFrom zeroVector data key

/-- Encrypts a buffer, chains starting from zeros. -/
def encrypt (c : Cipher) (data key : Bytes) : Except Fault Bytes := do
  c.check data key
  return c.encryptBlocks zeroVector data key

end Cipher
end GameArchive
