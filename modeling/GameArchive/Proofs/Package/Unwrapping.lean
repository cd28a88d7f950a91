/-
What can be unwrapped, and what can go wrong then.

What was read as a wrapped file holds as many bytes as its plain text has,
and filled up to whole blocks, or as far as there are any, these are never
less. So there is something to decrypt, under a key of sixteen bytes, which
every cipher takes. Nothing can go wrong then but that there is no secret
for the key, and what comes out is cut to the size of the plain text.

Main statement: `unwrap_of_isWrapped`.
-/
import GameArchive.Proofs.Package.Wrapping

namespace GameArchive.Package

-- ================================================================== keys

/-- There are four secrets, and each goes with two selectors. -/
theorem Key.ofSelector_eq_error {selector : UInt8}
    (h : 8 ≤ selector.toNat) (name : String) :
    ofSelector selector name = .error (.badSelector selector) := by
  have hnone : secrets[selector.toNat / 2]? = none :=
    List.getElem?_eq_none (show 4 ≤ selector.toNat / 2 by omega)
  unfold ofSelector
  rw [hnone]

-- ================================================================ bodies

namespace Body

variable {c : Cipher} {selector : UInt8} {body : Bytes}

/-- There is no key for a selector above seven. -/
theorem decrypt_eq_error (h : 8 ≤ selector.toNat) (name : String) :
    decrypt name c selector body = .error (.badSelector selector) := by
  unfold decrypt
  rw [Key.ofSelector_eq_error h]
  rfl

/-- Under a key from a secret everything decrypts that is not empty. -/
theorem exists_decrypt (h : selector.toNat < 8) (name : String)
    (hbody : body ≠ []) :
    ∃ plain, decrypt name c selector body = .ok plain
      ∧ plain.length = body.length := by
  obtain ⟨key, hkey, haccepted⟩ := Key.exists_accepted h name c
  refine ⟨c.decryptBlocks Cipher.zeroVector body key, ?_,
    Cipher.length_decryptBlocks c (Bytes.length_zeros 16) body key⟩
  unfold decrypt
  rw [hkey]
  show (c.decrypt body key).mapError _ = _
  rw [Cipher.decrypt_ok_iff.mpr ⟨⟨hbody, haccepted⟩, rfl⟩]
  rfl

end Body

namespace Wrapper

variable {name : String} {data : Bytes} {w : Wrapper}

-- =============================================================== reading

/-- Where the fields are that decryption goes by. -/
theorem fields_of_parse (h : parse name data = .ok w) :
    w.header.selector = data.byteAt 13
      ∧ w.header.plainSize = data.u32At 14 := by
  obtain ⟨hheader, -⟩ := parse_ok_iff.mp h
  unfold WrapperHeader.parse at hheader
  split at hheader
  case isTrue => cases hheader
  case isFalse =>
      rw [← Except.ok.inj hheader]
      exact ⟨rfl, rfl⟩

-- ============================================================ decryption

/-- Whether a key is needed that there is no secret for. -/
def LacksKey (w : Wrapper) : Prop :=
  8 ≤ w.header.selector.toNat ∧ w.header.plainSize ≠ 0

/-- How the decryption of a wrapped file ends. -/
structure Unwraps (w : Wrapper) : Prop where
  lacking : w.LacksKey → w.decrypt = .error (.badSelector w.header.selector)
  whole : ¬ w.LacksKey → ∃ plain, w.decrypt = .ok plain
    ∧ plain.length = w.header.plainSize.toNat

/-- What is decrypted is never less than the plain text. -/
theorem plainSize_le_sealedSize
    (hfits : w.header.plainSize.toNat ≤ w.body.length) :
    w.header.plainSize.toNat ≤ w.sealedSize := by
  refine Nat.le_min.mpr ⟨?_, hfits⟩
  cases w.cipher <;> simp only [Cipher.blockSize] <;> omega

/-- Whatever was parsed as a wrapped file unwraps, unless there is no key. -/
theorem unwraps_of_parse (h : parse name data = .ok w) : w.Unwraps := by
  obtain ⟨-, -, -, hfits, -, -⟩ := parse_ok_iff.mp h
  have hsealed := plainSize_le_sealedSize hfits
  have htake : (w.body.take w.sealedSize).length = w.sealedSize :=
    List.length_take_of_le (Nat.min_le_right ..)
  constructor
  case lacking =>
      rintro ⟨hselector, hsize⟩
      unfold decrypt
      rw [if_neg hsize, Body.decrypt_eq_error hselector]
      rfl
  case whole =>
      intro hlacks
      unfold decrypt
      split
      case isTrue hzero => exact ⟨[], rfl, by rw [hzero]; rfl⟩
      case isFalse hsize =>
          have hselector : w.header.selector.toNat < 8 :=
            Nat.not_le.mp fun hlarge => hlacks ⟨hlarge, hsize⟩
          have hpos : 0 < w.header.plainSize.toNat :=
            Nat.pos_of_ne_zero fun hzero =>
              hsize (UInt32.toNat_inj.mp hzero)
          have hbody : w.body.take w.sealedSize ≠ [] := by
            rw [← List.length_pos_iff, htake]
            omega
          obtain ⟨plain, hplain, hlength⟩ :=
            Body.exists_decrypt hselector w.name hbody (c := w.cipher)
          rw [hplain]
          refine ⟨plain.take w.header.plainSize.toNat, rfl, ?_⟩
          rw [List.length_take_of_le]
          omega

/-- What was wrapped is told, read and decrypted, whatever follows it. A
file of whatever bytes is told to be wrapped exactly if it can be read, and
then decryption ends as its selector and its size say. -/
theorem unwrap_of_isWrapped (name : String) :
    (∀ cipher selector plain w, plain.length < 0x100000000 →
        encode name cipher selector plain = .ok w → ∀ suffix,
      isWrapped (w ++ suffix) = true
        ∧ ∃ wrapper, parse name (w ++ suffix) = .ok wrapper
          ∧ wrapper.decrypt = .ok plain)
      ∧ ∀ data,
        (isWrapped data = true ↔ ∃ wrapper, parse name data = .ok wrapper)
          ∧ ∀ wrapper, parse name data = .ok wrapper →
            wrapper.header.selector = data.byteAt 13
              ∧ wrapper.header.plainSize = data.u32At 14
              ∧ wrapper.Unwraps := by
  refine ⟨fun cipher selector plain w hplain h suffix => ?_,
    fun data => ⟨isWrapped_iff_exists_parse name data, ?_⟩⟩
  · exact ⟨isWrapped_encode hplain h suffix, decrypt_encode hplain h suffix⟩
  · intro wrapper h
    obtain ⟨hselector, hsize⟩ := fields_of_parse h
    exact ⟨hselector, hsize, unwraps_of_parse h⟩

/-- Three bytes, wrapped and followed by another, and one byte that no
secret opens. -/
theorem unwrap_of_isWrapped_short :
    let unopened : Bytes := Bytes.zeros 10 ++ [2, 0, 1, 8, 1, 0, 0, 0, 0x55]
    (∃ w, encode "a.elua" .blowfish 5 [1, 2, 3] = .ok w
        ∧ isWrapped (w ++ [9]) = true
        ∧ ∃ wrapper, parse "a.elua" (w ++ [9]) = .ok wrapper
          ∧ wrapper.decrypt = .ok [1, 2, 3])
      ∧ isWrapped unopened = true
      ∧ ∃ wrapper, parse "a.elua" unopened = .ok wrapper
        ∧ wrapper.decrypt = .error (.badSelector 8) := by
  intro unopened
  obtain ⟨hencoded, hread⟩ := unwrap_of_isWrapped "a.elua"
  obtain ⟨w, hw⟩ := exists_encode (show (5 : UInt8).toNat < 8 by decide)
    "a.elua" .blowfish [1, 2, 3]
  obtain ⟨htold, hfields⟩ := hread unopened
  have hwrapped : isWrapped unopened = true := by decide
  obtain ⟨wrapper, hparsed⟩ := htold.mp hwrapped
  obtain ⟨hselector, hsize, hunwraps⟩ := hfields wrapper hparsed
  have height : wrapper.header.selector = 8 := hselector
  have hlacks : wrapper.LacksKey := by
    unfold LacksKey
    rw [hselector, hsize]
    decide
  refine ⟨⟨w, hw, hencoded .blowfish 5 [1, 2, 3] w (by decide) hw [9]⟩,
    hwrapped, wrapper, hparsed, ?_⟩
  rw [hunwraps.lacking hlacks, height]

end Wrapper
end GameArchive.Package
