/-
Unwrapping what was wrapped.

A file is told to be wrapped by the same fields that its reader checks. It
says how long its plain text is, so it can be followed by anything. Its body
is as long as the plain text filled up to whole blocks, which is just how
much of what follows the header is decrypted; the filling is then cut off.
Whether a file can be wrapped at all depends on the selector alone, and what
could be wrapped can be unwrapped.

Main statements: `isWrapped_iff_exists_parse`, `decrypt_encode`.
-/
import GameArchive.Package.Wrapper
import GameArchive.Proofs.Bytes.Reading
import GameArchive.Proofs.Package.Keys
import GameArchive.Proofs.Reported

namespace GameArchive

namespace Bytes

theorem take_padTo (size : Nat) (data : Bytes) :
    (data.padTo size).take data.length = data := List.take_left

/-- The number of bytes up to the next whole block. -/
theorem length_padTo_blockSize (c : Cipher) (data : Bytes) :
    (data.padTo c.blockSize).length
      = (data.length + (c.blockSize - 1)) / c.blockSize * c.blockSize := by
  unfold padTo
  rw [List.length_append, length_zeros]
  cases c <;> simp only [Cipher.blockSize] <;> omega

end Bytes

namespace Package

open Bytes

-- ================================================================= bodies

namespace Body

/-- An id stands for a cipher or is refused. -/
theorem cipherOf_ok_iff {id : UInt8} {c : Cipher} :
    cipherOf id = .ok c ↔ Cipher.ofId? id = some c := by
  unfold cipherOf
  cases Cipher.ofId? id with
  | none => simp
  | some cipher => simp

theorem cipherOf_id (c : Cipher) : cipherOf c.id = .ok c := by
  cases c <;> rfl

/-- What could be encrypted is decrypted, with its filling. -/
theorem decrypt_encrypt {name : String} {c : Cipher} {selector : UInt8}
    {plain body : Bytes} (h : encrypt name c selector plain = .ok body) :
    body.length = (plain.padTo c.blockSize).length
      ∧ decrypt name c selector body = .ok (plain.padTo c.blockSize) := by
  obtain ⟨key, hkey, hbody⟩ := Reported.except_bind_ok h
  cases hencrypted : c.encrypt (plain.padTo c.blockSize) key with
  | error fault =>
      rw [hencrypted] at hbody
      cases hbody
  | ok sealed =>
      rw [hencrypted] at hbody
      cases hbody
      obtain ⟨-, rfl⟩ := Cipher.encrypt_ok_iff.mp hencrypted
      refine ⟨Cipher.length_encryptBlocks .., ?_⟩
      unfold decrypt
      rw [hkey]
      show (c.decrypt _ key).mapError _ = _
      rw [Cipher.decrypt_encrypt hencrypted]
      rfl

/-- With a selector that there is, any body can be encrypted. -/
theorem exists_encrypt {selector : UInt8} (h : selector.toNat < 8)
    (name : String) (c : Cipher) {plain : Bytes} (hplain : plain ≠ []) :
    ∃ body, encrypt name c selector plain = .ok body := by
  obtain ⟨key, hkey, haccepted⟩ := Key.exists_accepted h name c
  have hpadded : plain.padTo c.blockSize ≠ [] := by
    unfold padTo
    simp [hplain]
  refine ⟨c.encryptBlocks Cipher.zeroVector (plain.padTo c.blockSize) key,
    ?_⟩
  unfold encrypt
  rw [hkey]
  show (c.encrypt _ key).mapError _ = _
  rw [Cipher.encrypt_ok_iff.mpr ⟨⟨hpadded, haccepted⟩, rfl⟩]
  rfl

end Body

-- ================================================================ headers

namespace WrapperHeader

variable {h : WrapperHeader}

theorem length_toBytes (hchecksum : h.checksum.length = checksumSize) :
    h.toBytes.length = size := by
  unfold toBytes
  simp [hchecksum, checksumSize, size]

/-- A header reads back, whatever follows it. -/
theorem parse_toBytes (hchecksum : h.checksum.length = checksumSize)
    (rest : Bytes) : parse (h.toBytes ++ rest) = .ok h := by
  have hlength : ¬ (h.toBytes ++ rest).length < size := by
    rw [List.length_append, length_toBytes hchecksum]
    omega
  have hten : h.checksum.length = 10 := hchecksum
  unfold parse
  rw [if_neg hlength]
  unfold toBytes checksumSize
  simp only [List.append_assoc]
  rw [slice_head hten, u16At_behind hten _ 0, byteAt_behind hten _ 2,
    byteAt_behind hten _ 3, u32At_behind hten _ 4]
  simp only [List.cons_append, List.nil_append, u16At_head, u32At_head,
    byteAt_head, byteAt_behind_half, byteAt_behind_byte, u32At_behind_half,
    u32At_behind_byte]

end WrapperHeader

-- ================================================================== files

namespace Wrapper

variable {name : String} {cipher : Cipher} {selector : UInt8}
  {plain w : Bytes}

/-- The header of a file that is wrapped in this way. -/
def headerOf (cipher : Cipher) (selector : UInt8) (plain : Bytes) :
    WrapperHeader :=
  ⟨Bytes.zeros WrapperHeader.checksumSize, WrapperHeader.knownVersion,
    cipher.id, selector, UInt32.ofNat plain.length⟩

/-- A wrapped file is its header and its body. The body of an empty file is
empty; that of any other is as long as its whole blocks, and decrypts to
them. -/
theorem encode_ok (h : encode name cipher selector plain = .ok w) :
    ∃ body, w = (headerOf cipher selector plain).toBytes ++ body
      ∧ body.length = (plain.padTo cipher.blockSize).length
      ∧ (plain ≠ [] → Body.decrypt name cipher selector body
          = .ok (plain.padTo cipher.blockSize)) := by
  obtain ⟨body, hbody, hw⟩ := Reported.except_bind_ok h
  cases hw
  refine ⟨body, rfl, ?_⟩
  unfold encodeBody at hbody
  split at hbody
  case isTrue hempty =>
      cases hbody
      rw [List.isEmpty_iff.mp hempty]
      refine ⟨?_, fun hplain => absurd rfl hplain⟩
      cases cipher <;> rfl
  case isFalse =>
      obtain ⟨hlength, hdecrypt⟩ := Body.decrypt_encrypt hbody
      exact ⟨hlength, fun _ => hdecrypt⟩

/-- With a selector that there is, any file can be wrapped. -/
theorem exists_encode (h : selector.toNat < 8) (name : String)
    (cipher : Cipher) (plain : Bytes) :
    ∃ w, encode name cipher selector plain = .ok w := by
  have hbody : ∃ body, encodeBody name cipher selector plain = .ok body := by
    unfold encodeBody
    split
    case isTrue => exact ⟨_, rfl⟩
    case isFalse hplain =>
        exact Body.exists_encrypt h name cipher fun heq =>
          hplain (List.isEmpty_iff.mpr heq)
  obtain ⟨body, hbody⟩ := hbody
  refine ⟨(headerOf cipher selector plain).toBytes ++ body, ?_⟩
  unfold encode
  rw [hbody]
  rfl

-- ================================================================ reading

/-- What is read is the header, if its version and its cipher are known,
and what follows it, if that is as long as the plain text. -/
theorem parse_ok_iff {data : Bytes} {w : Wrapper} :
    parse name data = .ok w
      ↔ WrapperHeader.parse data = .ok w.header
        ∧ w.header.version = WrapperHeader.knownVersion
        ∧ Cipher.ofId? w.header.cipherId = some w.cipher
        ∧ w.header.plainSize.toNat ≤ w.body.length
        ∧ w.body = data.drop WrapperHeader.size
        ∧ w.name = name := by
  constructor
  · intro h
    obtain ⟨header, hheader, h⟩ := Reported.except_bind_ok h
    split at h
    case isTrue => cases h
    case isFalse hversion =>
        obtain ⟨cipher, hcipher, h⟩ := Reported.except_bind_ok h
        dsimp only at h
        split at h
        case isTrue => cases h
        case isFalse hfits =>
            cases h
            exact ⟨hheader, Decidable.not_not.mp hversion,
              Body.cipherOf_ok_iff.mp hcipher, Nat.not_lt.mp hfits, rfl, rfl⟩
  · obtain ⟨_, header, cipher, _⟩ := w
    rintro ⟨hheader, hversion, hcipher, hfits, rfl, rfl⟩
    unfold parse
    rw [hheader]
    simp only [bind, Except.bind]
    rw [if_neg fun hne => hne hversion, Body.cipherOf_ok_iff.mpr hcipher]
    exact if_neg (Nat.not_lt.mpr hfits)

/-- A file is told to be wrapped exactly if it can be read. -/
theorem isWrapped_iff_exists_parse (name : String) (data : Bytes) :
    isWrapped data = true ↔ ∃ w, parse name data = .ok w := by
  unfold isWrapped
  cases hheader : WrapperHeader.parse data with
  | error cause =>
      simp [parse_ok_iff, hheader]
  | ok header =>
      simp only [WrapperHeader.isKnown, Bool.and_eq_true, decide_eq_true_eq,
        Option.isSome_iff_exists, parse_ok_iff, hheader, Except.ok.injEq]
      constructor
      · rintro ⟨⟨hversion, cipher, hcipher⟩, hfits⟩
        refine ⟨⟨name, header, cipher, data.drop WrapperHeader.size⟩, rfl,
          hversion, hcipher, ?_, rfl, rfl⟩
        rwa [List.length_drop]
      · rintro ⟨w, rfl, hversion, hcipher, hfits, hbody, -⟩
        rw [hbody, List.length_drop] at hfits
        exact ⟨⟨hversion, _, hcipher⟩, hfits⟩

-- ============================================================ and unwrapped

section

variable {body : Bytes} (hplain : plain.length < 0x100000000)
  (hlength : body.length = (plain.padTo cipher.blockSize).length)
  (suffix : Bytes)

include hplain

theorem toNat_plainSize :
    (headerOf cipher selector plain).plainSize.toNat = plain.length :=
  UInt32.toNat_ofNat_of_lt' hplain

include hlength

theorem plainSize_le_body :
    (headerOf cipher selector plain).plainSize.toNat
      ≤ (body ++ suffix).length := by
  rw [toNat_plainSize hplain, List.length_append, hlength, padTo,
    List.length_append]
  omega

/-- What was wrapped is parsed, with whatever follows it. -/
theorem parse_wrapped (name : String) :
    parse name ((headerOf cipher selector plain).toBytes ++ (body ++ suffix))
      = .ok ⟨name, headerOf cipher selector plain, cipher,
          body ++ suffix⟩ := by
  have hheader : (headerOf cipher selector plain).toBytes.length
      = WrapperHeader.size := WrapperHeader.length_toBytes (length_zeros _)
  exact parse_ok_iff.mpr ⟨WrapperHeader.parse_toBytes (length_zeros _) _, rfl,
    Body.cipherOf_ok_iff.mp (Body.cipherOf_id cipher),
    plainSize_le_body hplain hlength suffix, (List.drop_left' hheader).symm,
    rfl⟩

/-- Only the body is decrypted of what follows the header. -/
theorem sealedSize_wrapped (name : String) :
    sealedSize ⟨name, headerOf cipher selector plain, cipher,
      body ++ suffix⟩ = body.length := by
  unfold sealedSize
  dsimp only
  rw [toNat_plainSize hplain, hlength, ← length_padTo_blockSize,
    List.length_append, hlength]
  exact Nat.min_eq_left (Nat.le_add_right ..)

/-- Cut to its size, the decrypted body is the file. -/
theorem decrypt_wrapped (hdecrypt : plain ≠ [] →
      Body.decrypt name cipher selector body
        = .ok (plain.padTo cipher.blockSize)) :
    decrypt ⟨name, headerOf cipher selector plain, cipher, body ++ suffix⟩
      = .ok plain := by
  have hsize : (headerOf cipher selector plain).plainSize.toNat
      = plain.length := toNat_plainSize hplain
  unfold decrypt
  split
  case isTrue hzero =>
      have hnone : plain.length = 0 := by
        rw [← hsize]
        exact congrArg UInt32.toNat hzero
      rw [List.length_eq_zero_iff.mp hnone]
      rfl
  case isFalse hsome =>
      have hne : plain ≠ [] := by
        rintro rfl
        exact hsome rfl
      rw [sealedSize_wrapped hplain hlength suffix name, List.take_left]
      show (Body.decrypt name cipher selector body >>= _) = _
      rw [hdecrypt hne]
      show Except.ok (List.take
        (headerOf cipher selector plain).plainSize.toNat _) = _
      rw [hsize, take_padTo]

end

section

variable (hplain : plain.length < 0x100000000)
  (h : encode name cipher selector plain = .ok w) (suffix : Bytes)

include hplain h

/-- A wrapped file is read and decrypted to what was wrapped, whatever
follows it. -/
theorem decrypt_encode :
    ∃ wrapper, parse name (w ++ suffix) = .ok wrapper
      ∧ wrapper.decrypt = .ok plain := by
  obtain ⟨body, rfl, hlength, hdecrypt⟩ := encode_ok h
  refine ⟨⟨name, headerOf cipher selector plain, cipher, body ++ suffix⟩,
    ?_, decrypt_wrapped hplain hlength suffix hdecrypt⟩
  rw [List.append_assoc]
  exact parse_wrapped hplain hlength suffix name

/-- A wrapped file is told, whatever follows it. -/
theorem isWrapped_encode : isWrapped (w ++ suffix) = true := by
  obtain ⟨wrapper, hparsed, -⟩ := decrypt_encode hplain h suffix
  exact (isWrapped_iff_exists_parse name (w ++ suffix)).mpr
    ⟨wrapper, hparsed⟩

end
end Wrapper
end Package
end GameArchive
