/-
One file of an archive, wherever it is.

A file stands behind a header that gives the lengths of its name and of an
extra field, and two sizes. The sizes are only what the header says: one of
them tells where the next file is looked for, and nothing holds them to
what is stored. So the step lemma leaves them open. It takes any file
between any bytes, and says what is left to do once the header is read:
the contents are looked for in all that follows it.

Main statement: `readFile_toBytes`.
-/
import GameArchive.Map.Pak
import GameArchive.Proofs.Bytes.Pieces

namespace GameArchive.Map.Pak

open Bytes

/-- A file behind its header, with whatever else the header says. -/
structure LocalFile where
  name : Bytes
  /-- What the header has between its signature and the sizes. -/
  junk : Bytes
  packedSize : UInt32
  unpackedSize : UInt32
  extra : Bytes
  stored : Bytes
  length_name : name.length < 0x10000
  length_junk : junk.length = 14
  length_extra : extra.length < 0x10000

namespace LocalFile

/-- The header, the name, the extra field, and what is stored. -/
def toBytes (f : LocalFile) : Bytes :=
  ofUInt32 0x04034B50 ++ (f.junk ++ (ofUInt32 f.packedSize
    ++ (ofUInt32 f.unpackedSize ++ (Bytes.ofNat 2 f.name.length
      ++ (Bytes.ofNat 2 f.extra.length
        ++ (f.name ++ (f.extra ++ f.stored)))))))

/-- The length of all that stands before what is stored. -/
def frontLength (f : LocalFile) : Nat := 30 + f.name.length + f.extra.length

variable (f : LocalFile) (after : Bytes)

/-- A file takes the space of its front and of what is stored. -/
theorem length_toBytes :
    f.toBytes.length = f.frontLength + f.stored.length := by
  have hjunk := f.length_junk
  unfold toBytes frontLength
  simp only [List.length_append, length_ofUInt32, length_ofNat]
  omega

/-- With something behind it, a file is a row of its fields; what follows is
read off this. -/
theorem toBytes_append :
    f.toBytes ++ after = ofUInt32 0x04034B50 ++ (f.junk
      ++ (ofUInt32 f.packedSize ++ (ofUInt32 f.unpackedSize
        ++ (Bytes.ofNat 2 f.name.length ++ (Bytes.ofNat 2 f.extra.length
          ++ (f.name ++ (f.extra ++ (f.stored ++ after)))))))) := by
  unfold toBytes
  simp only [List.append_assoc]

/-- Of the words in the header, the reader looks at three. -/
theorem u32At_toBytes :
    (f.toBytes ++ after).u32At 0 = localSignature
      ∧ (f.toBytes ++ after).u32At 18 = f.packedSize
      ∧ (f.toBytes ++ after).u32At 22 = f.unpackedSize := by
  rw [toBytes_append]
  refine ⟨u32At_head _ _, ?_, ?_⟩
  · rw [u32At_behind_word _ _ 14, u32At_behind f.length_junk _ 0, u32At_head]
  · rw [u32At_behind_word _ _ 18, u32At_behind f.length_junk _ 4,
      u32At_behind_word _ _ 0, u32At_head]

/-- Of its halves of words, it looks at the two lengths. -/
theorem u16At_toBytes :
    ((f.toBytes ++ after).u16At 26).toNat = f.name.length
      ∧ ((f.toBytes ++ after).u16At 28).toNat = f.extra.length := by
  rw [toBytes_append]
  constructor
  · rw [u16At_behind_word _ _ 22, u16At_behind f.length_junk _ 8,
      u16At_behind_word _ _ 4, u16At_behind_word _ _ 0, u16At_ofNat]
    exact UInt16.toNat_ofNat_of_lt' f.length_name
  · rw [u16At_behind_word _ _ 24, u16At_behind f.length_junk _ 10,
      u16At_behind_word _ _ 6, u16At_behind_word _ _ 2,
      u16At_behind (length_ofNat 2 _) _ 0, u16At_ofNat]
    exact UInt16.toNat_ofNat_of_lt' f.length_extra

/-- Behind the fixed part of the header come the name and the rest. -/
theorem drop_toBytes_thirty (k : Nat) :
    (f.toBytes ++ after).drop (30 + k)
      = (f.name ++ (f.extra ++ (f.stored ++ after))).drop k := by
  rw [toBytes_append,
    show 30 + k = 4 + (14 + (4 + (4 + (2 + (2 + k))))) by omega,
    drop_behind (length_ofUInt32 _), drop_behind f.length_junk,
    drop_behind (length_ofUInt32 _), drop_behind (length_ofUInt32 _),
    drop_behind (length_ofNat 2 _), drop_behind (length_ofNat 2 _)]

theorem slice_toBytes_name :
    (f.toBytes ++ after).slice 30 f.name.length = f.name := by
  unfold slice
  rw [f.drop_toBytes_thirty after 0]
  exact List.take_left

/-- Behind the front of a file comes what is stored. -/
theorem drop_toBytes_frontLength (before : Bytes) :
    (before ++ (f.toBytes ++ after)).drop (before.length + f.frontLength)
      = f.stored ++ after := by
  unfold frontLength
  rw [drop_behind rfl, Nat.add_assoc, f.drop_toBytes_thirty,
    drop_behind rfl, List.drop_left]

/-- A file is read where it is, whatever is before it: its header says what
its name is, and its contents are looked for in all that follows. -/
theorem readFile_toBytes (before : Bytes) (index : Nat) :
    readFile (before ++ (f.toBytes ++ after)) index before.length = (do
      let (inner, advance) ← readContents
        (before ++ (f.toBytes ++ after)).length
        (before.length + f.frontLength) f.packedSize f.unpackedSize
        (f.stored ++ after)
      let contents ← unpackTexture inner
      return (⟨f.name, contents⟩,
        before.length + f.frontLength + advance)) := by
  have hlength := f.length_toBytes
  have htotal : (before ++ (f.toBytes ++ after)).length
      = before.length + (f.toBytes.length + after.length) := by
    rw [List.length_append, List.length_append]
  obtain ⟨hsignature, hpacked, hunpacked⟩ := f.u32At_toBytes after
  obtain ⟨hname, hextra⟩ := f.u16At_toBytes after
  have hword : (before ++ (f.toBytes ++ after)).u32At? before.length
      = some localSignature := by
    rw [u32At?_eq_some (by unfold frontLength at hlength; omega),
      ← hsignature]
    exact congrArg some (u32At_behind rfl _ 0)
  have hstart : before.length + 30 + f.name.length + f.extra.length
      = before.length + f.frontLength := by
    unfold frontLength
    omega
  unfold readFile localSize
  dsimp only
  rw [hword, List.drop_left, hname, hextra, hpacked, hunpacked,
    f.slice_toBytes_name, hstart, f.drop_toBytes_frontLength,
    Option.getD_some, if_neg (fun h => h rfl),
    if_neg (by unfold frontLength at hlength; omega),
    if_neg (by unfold frontLength at hlength; omega)]

/-- If its contents are found, so is the file. -/
theorem readFile_of_contents (before : Bytes) (index : Nat)
    {inner contents : Bytes} {advance : Nat}
    (hinner : readContents (before ++ (f.toBytes ++ after)).length
        (before.length + f.frontLength) f.packedSize f.unpackedSize
        (f.stored ++ after)
      = .ok (inner, advance))
    (hcontents : unpackTexture inner = .ok contents) :
    readFile (before ++ (f.toBytes ++ after)) index before.length
      = .ok (⟨f.name, contents⟩,
        before.length + f.frontLength + advance) := by
  rw [readFile_toBytes, hinner]
  simp only [bind, Except.bind, hcontents]
  rfl

end LocalFile
end GameArchive.Map.Pak
