/-
Encrypted bodies.

Manifests and wrapped files have a body behind their header, encrypted as
the header says: with a cipher of a given number, under a key that a
selector and the file name make. A body is filled up to whole blocks.
-/
import GameArchive.Package.Key

namespace GameArchive.Package.Body

/-- The cipher of a number. -/
def cipherOf (id : UInt8) : Except Error Cipher :=
  match Cipher.ofId? id with
  | some cipher => .ok cipher
  | none => .error (.unknownCipher id)

/-- Decrypts the body of a file of this name. -/
def decrypt (name : String) (cipher : Cipher) (selector : UInt8) (body : Bytes) :
    Except Error Bytes := do
  let key ← Key.ofSelector selector name
  (cipher.decrypt body key).mapError .cipher

/-- Encrypts the body of a file of this name. -/
def encrypt (name : String) (cipher : Cipher) (selector : UInt8) (plain : Bytes) :
    Except Error Bytes := do
  let key ← Key.ofSelector selector name
  (cipher.encrypt (plain.padTo cipher.blockSize) key).mapError .cipher

end GameArchive.Package.Body
