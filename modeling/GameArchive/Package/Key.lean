/-
Keys, which are made of a secret and the name of what they open.

The body of a manifest and of an encrypted file has the digest of a fixed
number, one of four secrets and the name as its key, and a selector says
which secret, and in which order. Containers take the hexadecimal digits of
the digest of a provider's secret and the name.
-/
import GameArchive.Bytes.Hex
import GameArchive.Digest.Md5
import GameArchive.Package.Error

namespace GameArchive.Package.Key

/-- The secrets that a selector chooses from. -/
def secrets : List Bytes :=
  [[0x9A, 0xA6, 0xC7, 0x59, 0x18, 0xEA, 0xD0, 0x44, 0x83, 0xA3, 0x3A, 0x3E, 0xCE, 0xAF,
    0x6F, 0x68],
   [0xB6, 0xBA, 0x15, 0xC7, 0x77, 0x9D, 0x9C, 0x49, 0x84, 0x62, 0x2A, 0x9A, 0x8A, 0x61,
    0x84, 0xA6],
   [0x68, 0x55, 0x24, 0x24, 0x2B, 0xCB, 0x88, 0x4B, 0xA7, 0xA6, 0xD2, 0xC7, 0x94, 0xED,
    0xE8, 0xD3],
   [0x36, 0x24, 0xD6, 0x8C, 0x6C, 0xB8, 0xE1, 0x4A, 0xB1, 0x82, 0xC0, 0xA3, 0xDC, 0xE4,
    0x16, 0xC8]]

/-- What every body key begins with: the number 2. -/
def bodySalt : Bytes := [2, 0, 0, 0]

/-- The key of a body: half the selector chooses the secret, and an odd
selector puts it before the name. -/
def ofSelector (selector : UInt8) (name : String) : Except Error Bytes :=
  match secrets[selector.toNat / 2]? with
  | none => .error (.badSelector selector)
  | some secret =>
    if selector.toNat % 2 = 1 then
      .ok (Md5.digest (bodySalt ++ (secret ++ Bytes.ofString name)))
    else .ok (Md5.digest (bodySalt ++ (Bytes.ofString name ++ secret)))

/-- The digits of the digest of a secret and a name. -/
def digits (secret : Bytes) (name : String) : String :=
  Bytes.toHex (Md5.digest (secret ++ Bytes.ofString name))

/-- The same digits as a key. -/
def ofSecret (secret : Bytes) (name : String) : Bytes := Bytes.ofString (digits secret name)

/-- Decrypts whole blocks under a key of digits. -/
def decipher (key data : Bytes) : Bytes :=
  Cipher.rijndael.decryptBlocks Cipher.zeroVector data key

/-- Encrypts whole blocks under a key of digits. -/
def encipher (key data : Bytes) : Bytes :=
  Cipher.rijndael.encryptBlocks Cipher.zeroVector data key

end GameArchive.Package.Key
