/-
Keys that ciphers take.

A digest is sixteen bytes, which every cipher takes as a key; its digits
are 32, more than what Rijndael needs. So encryption under such keys fails
for an empty buffer only, or if there is no key because no secret has the
number that a selector asks for.

Main statements: `encrypt_ofSecret`, `decrypt_ofSecret`, `decipher_encipher`.
-/
import GameArchive.Package.Key
import GameArchive.Proofs.Cipher.Engine
import GameArchive.Proofs.Text.Utf8

namespace GameArchive

theorem Hex.utf8Size_lowerDigit :
    ∀ {n : Nat}, n < 16 → (lowerDigit n).utf8Size = 1 := by
  decide

/-- Every digit is one byte. -/
theorem Bytes.length_ofString_toHex (data : Bytes) :
    (ofString data.toHex).length = 2 * data.length := by
  unfold toHex
  rw [ofString_eq, String.toList_ofList]
  induction data with
  | nil => rfl
  | cons b rest ih =>
      have hlt := b.toNat_lt
      rw [hexDigits, List.flatMap_cons, List.flatMap_cons,
        List.length_append, List.length_append, ih,
        String.length_utf8EncodeChar, String.length_utf8EncodeChar,
        Hex.utf8Size_lowerDigit (by omega),
        Hex.utf8Size_lowerDigit (by omega), List.length_cons]
      omega

namespace Package

/-- All ciphers take keys of sixteen bytes. -/
theorem acceptsKey_sixteen (c : Cipher) : c.acceptsKey 16 = true := by
  cases c <;> rfl

namespace Key

-- ============================================================== selectors

/-- The keys that a selector makes have sixteen bytes. -/
theorem length_ofSelector {selector : UInt8} {name : String} {key : Bytes}
    (h : ofSelector selector name = .ok key) : key.length = 16 := by
  unfold ofSelector at h
  split at h
  · cases h
  · split at h <;> cases h <;> exact Md5.length_digest _

/-- There are eight selectors. -/
theorem exists_ofSelector {selector : UInt8} (h : selector.toNat < 8)
    (name : String) : ∃ key, ofSelector selector name = .ok key := by
  obtain ⟨secret, hsecret⟩ : ∃ secret,
      secrets[selector.toNat / 2]? = some secret :=
    ⟨_, List.getElem?_eq_getElem (show selector.toNat / 2 < 4 by omega)⟩
  unfold ofSelector
  rw [hsecret]
  dsimp only
  split
  · exact ⟨_, rfl⟩
  · exact ⟨_, rfl⟩

/-- A key that a selector makes is one that every cipher takes. -/
theorem exists_accepted {selector : UInt8} (h : selector.toNat < 8)
    (name : String) (c : Cipher) :
    ∃ key, ofSelector selector name = .ok key
      ∧ c.acceptsKey key.length = true := by
  obtain ⟨key, hkey⟩ := exists_ofSelector h name
  refine ⟨key, hkey, ?_⟩
  rw [length_ofSelector hkey]
  exact acceptsKey_sixteen c

-- ================================================================= digits

/-- Keys that are made from a secret are written out in hexadecimal, and so are
twice as long as digests. -/
theorem length_ofSecret (secret : Bytes) (name : String) :
    (ofSecret secret name).length = 32 := by
  unfold ofSecret digits
  rw [Bytes.length_ofString_toHex, Md5.length_digest]

/-- The cipher of containers takes the keys that are made from secrets. -/
theorem acceptsKey_ofSecret (secret : Bytes) (name : String) :
    Cipher.rijndael.acceptsKey (ofSecret secret name).length = true := by
  rw [length_ofSecret]
  rfl

/-- Only an empty buffer cannot be encrypted. -/
theorem encrypt_ofSecret (secret : Bytes) (name : String) {data : Bytes}
    (hdata : data ≠ []) :
    Cipher.rijndael.encrypt data (ofSecret secret name)
      = .ok (encipher (ofSecret secret name) data) :=
  Cipher.encrypt_ok_iff.mpr ⟨⟨hdata, acceptsKey_ofSecret secret name⟩, rfl⟩

/-- Only an empty buffer cannot be decrypted. -/
theorem decrypt_ofSecret (secret : Bytes) (name : String) {data : Bytes}
    (hdata : data ≠ []) :
    Cipher.rijndael.decrypt data (ofSecret secret name)
      = .ok (decipher (ofSecret secret name) data) :=
  Cipher.decrypt_ok_iff.mpr ⟨⟨hdata, acceptsKey_ofSecret secret name⟩, rfl⟩

@[simp] theorem length_encipher (key data : Bytes) :
    (encipher key data).length = data.length :=
  Cipher.length_encryptBlocks ..

@[simp] theorem length_decipher (key data : Bytes) :
    (decipher key data).length = data.length :=
  Cipher.length_decryptBlocks .rijndael (Bytes.length_zeros 16) data key

/-- What was enciphered with a key is deciphered with it, whatever its
length. -/
theorem decipher_encipher (key data : Bytes) :
    decipher key (encipher key data) = data :=
  Cipher.decryptBlocks_encryptBlocks .rijndael (Bytes.length_zeros 16) data
    key

end Key
end Package
end GameArchive
