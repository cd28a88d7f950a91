/-
What a manifest names.

A body is filled up with zeros before it is encrypted, and it is read up to
its first zero, so the filling is never seen, whatever is in the body. What
is read of it are its lines, and the last one counts only if it ends. Names
that have no zero and no end of a line in them can be told apart in this
way, and nothing else is left out of them but what is no container.

Main statement: `parse_encode_names`.
-/
import GameArchive.Package.Manifest
import GameArchive.Proofs.Package.Wrapping
import GameArchive.Proofs.Text.Lines

namespace GameArchive.Package

open Bytes

-- ================================================================ headers

namespace ManifestHeader

variable (h : ManifestHeader)

theorem length_toBytes : h.toBytes.length = size := by
  unfold toBytes
  simp [size]

/-- A header reads back, whatever follows it. -/
theorem parse_toBytes (rest : Bytes) : parse (h.toBytes ++ rest) = .ok h := by
  have hlength : ¬ (h.toBytes ++ rest).length < size := by
    rw [List.length_append, length_toBytes]
    omega
  unfold parse
  rw [if_neg hlength]
  unfold toBytes
  simp only [List.cons_append, List.nil_append, List.append_assoc,
    u16At_head, u32At_head, byteAt_head, byteAt_behind_half,
    byteAt_behind_byte, u32At_behind_half, u32At_behind_byte]

end ManifestHeader

namespace Manifest

-- ================================================================== lines

/-- Whether a line in the manifest of this name names a container. -/
def NamesContainer (name line : String) : Prop :=
  ".pkg".toList <:+: line.toList ∧ line ≠ name

instance (name line : String) : Decidable (NamesContainer name line) :=
  inferInstanceAs (Decidable (_ ∧ _))

/-- Of the lines, exactly these are left out that name no container. -/
theorem containersOf_of_isCut {text rest : List Char}
    {lines : List (List Char)} (h : Text.IsCut text lines rest)
    (name : String) :
    containersOf name text
      = (lines.map String.ofList).filter (NamesContainer name ·) := by
  unfold containersOf
  rw [Text.crlfLines_iff_isCut.mpr ⟨rest, h⟩, List.filter_map,
    List.filter_map, List.filter_filter]
  refine congrArg (List.map String.ofList) (List.filter_congr ?_)
  intro line _
  rw [Bool.eq_iff_iff]
  simp [NamesContainer, Text.contains_iff, and_comm]

-- =========================================================== round trips

section

variable {name : String} {cipher : Cipher} {selector : UInt8}
  {body m : Bytes}

/-- With a selector that there is and a body that is not empty, encoding gives a
manifest. -/
theorem exists_encode (h : selector.toNat < 8) (name : String)
    (cipher : Cipher) (hbody : body ≠ []) :
    ∃ m, encode name cipher selector body = .ok m := by
  obtain ⟨sealed, hsealed⟩ := Body.exists_encrypt h name cipher hbody
  unfold encode
  rw [hsealed]
  exact ⟨_, rfl⟩

/-- A manifest reads back, whatever follows it: its text is what stood in
the body before a zero. -/
theorem parse_encode (h : encode name cipher selector body = .ok m)
    (hsize : (body.padTo cipher.blockSize).length < 0x100000000)
    (suffix : Bytes) :
    ∃ manifest, parse name (m ++ suffix) = .ok manifest
      ∧ manifest.containers
        = containersOf name (Text.ofBytes body.beforeZero).toList := by
  obtain ⟨sealed, hsealed, hm⟩ := Reported.except_bind_ok h
  cases hm
  obtain ⟨hlength, hdecrypt⟩ := Body.decrypt_encrypt hsealed
  have hdeclared : (UInt32.ofNat sealed.length).toNat = sealed.length :=
    UInt32.toNat_ofNat_of_lt' (hlength ▸ hsize)
  have hheader := ManifestHeader.length_toBytes
    ⟨ManifestHeader.knownVersion, cipher.id, selector,
      UInt32.ofNat sealed.length⟩
  unfold parse
  rw [List.append_assoc, ManifestHeader.parse_toBytes]
  simp only [bind, Except.bind]
  rw [if_neg fun hne => hne rfl, Body.cipherOf_id]
  dsimp only
  have hfits : ¬ (sealed ++ suffix).length < sealed.length := by
    rw [List.length_append]
    omega
  rw [List.drop_left' hheader, hdeclared, if_neg hfits, List.take_left,
    hdecrypt]
  refine ⟨_, rfl, ?_⟩
  dsimp only
  rw [padTo, beforeZero_append_zeros]

end

-- ================================================================= names

/-- Whether a name can stand on a line of its own. -/
structure FitsLine (name : String) : Prop where
  no_zero : '\x00' ∉ name.toList
  no_end : ¬ Text.crlf <:+: name.toList

/-- The check for a line is exactly that a name fits one. -/
theorem fitsLine_iff {name : String} :
    (!name.toList.contains '\x00'
        && !Text.contains Text.crlf name.toList) = true
      ↔ FitsLine name := by
  simp only [Bool.and_eq_true, Bool.not_eq_true', ← Bool.not_eq_true,
    List.contains_iff_mem, Text.contains_iff]
  exact ⟨fun h => ⟨h.1, h.2⟩, fun h => ⟨h.no_zero, h.no_end⟩⟩

instance (name : String) : Decidable (FitsLine name) :=
  decidable_of_iff _ fitsLine_iff

section

variable {names : List String} (h : ∀ name ∈ names, FitsLine name)

/-- The body has a line for each name. -/
theorem bodyOf_eq (names : List String) :
    bodyOf names = ofString (String.ofList
      ((names.map String.toList).flatMap (· ++ Text.crlf))) := by
  have hcrlf : Text.crlf.flatMap String.utf8EncodeChar = [13, 10] := by
    decide
  unfold bodyOf
  rw [ofString_eq, String.toList_ofList, List.flatMap_map,
    List.flatMap_assoc]
  refine congrArg (List.flatMap · names) (funext fun name => ?_)
  rw [List.flatMap_append, hcrlf, ofString_eq]

theorem bodyOf_ne_nil (hnames : names ≠ []) : bodyOf names ≠ [] := by
  obtain ⟨name, more, rfl⟩ := List.exists_cons_of_ne_nil hnames
  simp [bodyOf]

include h

/-- Names that fit have no zero, so nothing of the body is cut off. -/
theorem beforeZero_bodyOf : (bodyOf names).beforeZero = bodyOf names := by
  refine beforeZero_eq_self fun b hb => ?_
  obtain ⟨name, hname, hb⟩ := List.mem_flatMap.mp hb
  rcases List.mem_append.mp hb with hchars | hend
  · rw [ofString_eq] at hchars
    obtain ⟨c, hc, hb⟩ := List.mem_flatMap.mp hchars
    refine Text.ne_zero_of_mem_utf8EncodeChar ?_ hb
    rintro rfl
    exact (h name hname).no_zero hc
  · rintro rfl
    exact absurd hend (by decide)

/-- Cut at the ends of its lines, the body gives the names again. -/
theorem isCut_bodyOf :
    Text.IsCut (Text.ofBytes (bodyOf names)).toList
      (names.map String.toList) [] := by
  constructor
  case whole =>
      rw [bodyOf_eq, Text.ofBytes_ofString, String.toList_ofList,
        List.append_nil]
  case clear_lines => simpa using fun name hname => (h name hname).no_end
  case clear_rest => exact Text.not_crlf_infix_nil

end

section

variable (name : String) (cipher : Cipher) {selector : UInt8}

/-- A manifest can be written of every body that is not empty, and is read
back as the lines of its text that name containers. Names that fit a line
are thus read back as they are, but for those that are no containers. -/
theorem parse_encode_names (hselector : selector.toNat < 8) :
    (∀ body : Bytes, body ≠ [] →
        (body.padTo cipher.blockSize).length < 0x100000000 →
      ∃ m, encode name cipher selector body = .ok m ∧ ∀ suffix,
        ∃ manifest lines rest, parse name (m ++ suffix) = .ok manifest
          ∧ Text.IsCut (Text.ofBytes body.beforeZero).toList lines rest
          ∧ manifest.containers
            = (lines.map String.ofList).filter (NamesContainer name ·))
      ∧ ∀ names, names ≠ [] → (∀ name ∈ names, FitsLine name) →
          ((bodyOf names).padTo cipher.blockSize).length < 0x100000000 →
        ∃ m, encodeNames name cipher selector names = .ok m ∧ ∀ suffix,
          ∃ manifest, parse name (m ++ suffix) = .ok manifest
            ∧ manifest.containers = names.filter (NamesContainer name ·) := by
  constructor
  · intro body hbody hsize
    obtain ⟨m, hm⟩ := exists_encode hselector name cipher hbody
    refine ⟨m, hm, fun suffix => ?_⟩
    obtain ⟨manifest, hparsed, hcontainers⟩ := parse_encode hm hsize suffix
    obtain ⟨rest, hcut⟩ := Text.crlfLines_iff_isCut.mp
      (rfl : Text.crlfLines [] (Text.ofBytes body.beforeZero).toList = _)
    exact ⟨manifest, _, rest, hparsed, hcut,
      hcontainers.trans (containersOf_of_isCut hcut name)⟩
  · intro names hnames hfit hsize
    obtain ⟨m, hm⟩ :=
      exists_encode hselector name cipher (bodyOf_ne_nil hnames)
    refine ⟨m, hm, fun suffix => ?_⟩
    obtain ⟨manifest, hparsed, hcontainers⟩ := parse_encode hm hsize suffix
    refine ⟨manifest, hparsed, ?_⟩
    rw [hcontainers, beforeZero_bodyOf hfit,
      containersOf_of_isCut (isCut_bodyOf hfit), List.map_map]
    refine congrArg _ ((List.map_congr_left fun line _ => ?_).trans
      (List.map_id names))
    exact String.ofList_toList

end

/-- A name that is there twice, and one that no end of a line follows. -/
theorem parse_encode_names_twice :
    let names := ["a.pkg", "readme.txt", "m.pkg", "a.pkg"]
    let unended : Bytes := [0x61, 0x2E, 0x70, 0x6B, 0x67, 13, 10,
      0x62, 0x2E, 0x70, 0x6B, 0x67]
    (∃ m manifest, encodeNames "m.pkg" .aes 3 names = .ok m
        ∧ parse "m.pkg" (m ++ [9]) = .ok manifest
        ∧ manifest.containers = ["a.pkg", "a.pkg"])
      ∧ ∃ m manifest, encode "m.pkg" .aes 3 unended = .ok m
        ∧ parse "m.pkg" (m ++ [9]) = .ok manifest
        ∧ manifest.containers = ["a.pkg"] := by
  intro names unended
  obtain ⟨hbodies, hnames⟩ := parse_encode_names "m.pkg" .aes
    (show (3 : UInt8).toNat < 8 by decide)
  have hfit : ∀ name ∈ names, FitsLine name := by decide +kernel
  obtain ⟨m, hm, hread⟩ :=
    hnames names (by decide) hfit (by decide +kernel)
  obtain ⟨manifest, hparsed, hcontainers⟩ := hread [9]
  obtain ⟨m', hm', hread'⟩ := hbodies unended (by decide) (by decide)
  obtain ⟨manifest', lines, rest, hparsed', hcut, hcontainers'⟩ :=
    hread' [9]
  have hlines : lines = ["a.pkg".toList] := by
    rw [← Text.crlfLines_iff_isCut.mpr ⟨rest, hcut⟩]
    decide +kernel
  rw [hlines] at hcontainers'
  exact ⟨⟨m, manifest, hm, hparsed, hcontainers.trans (by decide +kernel)⟩,
    m', manifest', hm', hparsed', hcontainers'.trans (by decide +kernel)⟩

end Manifest
end GameArchive.Package
