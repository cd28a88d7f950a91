/-
Which bytes are a container.

A container is opened by one pass over its header and its records, and each
thing that can be wrong with it is looked for at one place of that pass: the
length of the file before anything, then the path in the header, then the
room for the table, then the path in each record. So the error says how far
the pass has come, and everything else about a file is free: any number in a
record, and any bytes behind the table, are those of a container.

Main statement: `opens_parse`.
-/
import GameArchive.Proofs.Package.Fields
import GameArchive.Proofs.Package.Keys

namespace GameArchive.Package

open Bytes

-- ============================================================= path fields

/-- A field says a path: printable bytes up to a zero, whose slashes may lean
either way. -/
def SaysPath (field : Bytes) (path : String) : Prop :=
  ∃ text rest, field = text ++ 0 :: rest
    ∧ (∀ b ∈ text, 0x20 ≤ b ∧ b ≠ 0x7F)
    ∧ path = Text.forwardSlashes (Text.ofBytes text)

/-- A field says no path: it does not end, or has a control byte before it
does. -/
def Unreadable (field : Bytes) : Prop :=
  0 ∉ field ∨ ∃ text rest, field = text ++ 0 :: rest ∧ 0 ∉ text
    ∧ ∃ b ∈ text, b < 0x20 ∨ b = 0x7F

namespace Entry

theorem pathOf?_of_notMem {field : Bytes} (h : 0 ∉ field) :
    pathOf? field = none := by
  have hwhole : field.beforeZero = field :=
    beforeZero_eq_self fun b hb hzero => h (hzero ▸ hb)
  unfold pathOf?
  dsimp only
  rw [hwhole, decide_eq_false (Nat.lt_irrefl _), Bool.false_and,
    if_neg Bool.false_ne_true]

/-- What stands before the first zero is the path, if all of it is printable. -/
theorem pathOf?_append_zero {text : Bytes} (h : 0 ∉ text) (rest : Bytes) :
    pathOf? (text ++ 0 :: rest)
      = if text.all isPathByte then
          some (Text.slashed (Text.ofBytes text))
        else none := by
  have hroom : text.length < (text ++ 0 :: rest).length := by
    rw [List.length_append, List.length_cons]
    omega
  unfold pathOf?
  dsimp only
  rw [beforeZero_append_zero fun b hb hzero => h (hzero ▸ hb),
    decide_eq_true hroom, Bool.true_and]

/-- Bytes can all be part of a path if none of them is a control byte. -/
theorem all_isPathByte_iff {text : Bytes} :
    text.all isPathByte = true ↔ ∀ b ∈ text, 0x20 ≤ b ∧ b ≠ 0x7F := by
  rw [List.all_eq_true]
  simp only [isPathByte_iff]

theorem not_all_isPathByte_iff {text : Bytes} :
    ¬ text.all isPathByte = true ↔ ∃ b ∈ text, b < 0x20 ∨ b = 0x7F := by
  have hcontrol : ∀ b, ¬ isPathByte b = true ↔ b < 0x20 ∨ b = 0x7F := by
    intro b
    rw [isPathByte_iff, Decidable.not_and_iff_not_or_not, UInt8.not_le, Ne,
      Decidable.not_not]
  rw [Bool.not_eq_true, List.all_eq_false]
  simp only [hcontrol]

/-- A field is read exactly if it says a path, and as what it says. -/
theorem pathOf?_eq_some_iff {field : Bytes} {path : Text.Slashed} :
    pathOf? field = some path ↔ SaysPath field path := by
  constructor
  · intro h
    by_cases hzero : 0 ∈ field
    · obtain ⟨text, rest, rfl, htext⟩ := List.eq_append_cons_of_mem hzero
      rw [pathOf?_append_zero htext] at h
      split at h
      next hall =>
        exact ⟨text, rest, rfl, all_isPathByte_iff.mp hall,
          (congrArg Subtype.val (Option.some.inj h)).symm⟩
      next => cases h
    · rw [pathOf?_of_notMem hzero] at h
      cases h
  · rintro ⟨text, rest, rfl, hprintable, hpath⟩
    have htext : 0 ∉ text := fun hzero =>
      absurd (hprintable 0 hzero).1 (by decide)
    rw [pathOf?_append_zero htext, if_pos (all_isPathByte_iff.mpr hprintable)]
    exact congrArg some (Subtype.ext hpath.symm)

/-- A field is refused exactly if it is unreadable. -/
theorem pathOf?_eq_none_iff {field : Bytes} :
    pathOf? field = none ↔ Unreadable field := by
  constructor
  · intro h
    by_cases hzero : 0 ∈ field
    · obtain ⟨text, rest, rfl, htext⟩ := List.eq_append_cons_of_mem hzero
      rw [pathOf?_append_zero htext] at h
      split at h
      next => cases h
      next hall =>
        exact .inr ⟨text, rest, rfl, htext, not_all_isPathByte_iff.mp hall⟩
    · exact .inl hzero
  · rintro (hzero | ⟨text, rest, rfl, htext, hbad⟩)
    · exact pathOf?_of_notMem hzero
    · rw [pathOf?_append_zero htext, if_neg (not_all_isPathByte_iff.mpr hbad)]

/-- What a record says of a file whose contents are counted from `base`. -/
structure Records (base : Nat) (record : Bytes) (e : Entry) : Prop where
  path : SaysPath (record.take 261) e.path
  offset : e.offset = base + (record.u32At 261).toNat
  packedSize : e.packedSize = record.u32At 265
  unpackedSize : e.unpackedSize = record.u32At 269
  isEncrypted : e.isEncrypted = (record.byteAt 274 != 0)

/-- The path that a record says is the one that is read. -/
theorem Records.pathOf?_eq {base : Nat} {record : Bytes} {e : Entry}
    (h : Records base record e) :
    pathOf? (record.take 261) = some ⟨e.path, e.slashed⟩ :=
  pathOf?_eq_some_iff.mpr h.path

/-- A record is read as the entry that it says, and as no other. -/
theorem ofRecord?_eq_some_iff {base : Nat} {record : Bytes} {e : Entry} :
    ofRecord? base record = some e ↔ Records base record e := by
  unfold ofRecord?
  constructor
  · intro h
    split at h
    next => cases h
    next path slashed hpath =>
      cases h
      exact ⟨pathOf?_eq_some_iff.mp hpath, rfl, rfl, rfl, rfl⟩
  · intro h
    have hread := h.pathOf?_eq
    obtain ⟨-, hoffset, hpacked, hunpacked, hencrypted⟩ := h
    obtain ⟨path, offset, packed, unpacked, encrypted, slashed⟩ := e
    dsimp only at hread hoffset hpacked hunpacked hencrypted
    rw [show record.take pathSize = record.take 261 from rfl, hread, hoffset,
      hpacked, hunpacked, hencrypted]
    rfl

theorem ofRecord?_eq_none_iff {base : Nat} {record : Bytes} :
    ofRecord? base record = none ↔ Unreadable (record.take 261) := by
  rw [← pathOf?_eq_none_iff]
  unfold ofRecord?
  constructor
  · intro h
    split at h
    next hpath => exact hpath
    next => cases h
  · intro h
    rw [show record.take pathSize = record.take 261 from rfl, h]

end Entry

namespace Container

-- ============================================================= in the clear

section

variable (name : String) (provider : Provider) (file : Bytes)

/-- The key of header and table. -/
def tableKey : Bytes := Key.ofSecret provider.headerSecret name

/-- The header, decrypted. -/
def clearHeader : Bytes :=
  Key.decipher (tableKey name provider) (file.slice 33 272)

/-- How many records the header counts. -/
def recordCount : Nat := ((clearHeader name provider file).u32At 265).toNat

/-- The record number `i`, decrypted. -/
def clearRecord (i : Nat) : Bytes :=
  Key.decipher (tableKey name provider) (file.slice (305 + 288 * i) 288)

/-- What an opened container has of its file: everything that header and
records say, in their order. -/
structure Lists (c : Container) : Prop where
  name_eq : c.name = name
  provider_eq : c.provider = provider
  file_eq : c.file = file
  openedSize_eq : c.openedSize = file.length
  directory : SaysPath ((clearHeader name provider file).take 261) c.directory
  length_entries : c.entries.length = recordCount name provider file
  entry : ∀ i, i < recordCount name provider file →
    ∃ e, c.entries[i]? = some e
      ∧ Entry.Records (305 + 288 * recordCount name provider file)
        (clearRecord name provider file i) e

/-- How far opening comes, and what becomes of it there. -/
inductive Opens : Except Error Container → Prop
  | short (hshort : file.length < 305) :
      Opens (.error (.shortData 305 file.length))
  | foreign (hlong : 305 ≤ file.length)
      (hpath : Unreadable ((clearHeader name provider file).take 261)) :
      Opens (.error (.providerMismatch (some provider) name))
  | overfull (hlong : 305 ≤ file.length)
      (hpath : ¬ Unreadable ((clearHeader name provider file).take 261))
      (hroom : file.length < 305 + 288 * recordCount name provider file) :
      Opens (.error (.longTable name (recordCount name provider file)
        file.length))
  | damaged
      (hpath : ¬ Unreadable ((clearHeader name provider file).take 261))
      (hroom : 305 + 288 * recordCount name provider file ≤ file.length)
      {i : Nat} (hi : i < recordCount name provider file)
      (hrecord : Unreadable ((clearRecord name provider file i).take 261))
      (hbefore : ∀ j, j < i →
        ¬ Unreadable ((clearRecord name provider file j).take 261)) :
      Opens (.error (.badEntryPath name i))
  | opened
      (hpath : ¬ Unreadable ((clearHeader name provider file).take 261))
      (hroom : 305 + 288 * recordCount name provider file ≤ file.length)
      (hrecords : ∀ i, i < recordCount name provider file →
        ¬ Unreadable ((clearRecord name provider file i).take 261))
      {c : Container} (hlists : Lists name provider file c) : Opens (.ok c)

end

-- =============================================================== the table

/-- Either each record says an entry, or there is a first one that says no
path. -/
theorem readEntries_cases (name : String) (key : Bytes) (base : Nat)
    (records : List Bytes) :
    ∀ index,
      (∃ entries, readEntries name key base index records = .ok entries
        ∧ entries.length = records.length
        ∧ ∀ {i : Nat} {record : Bytes}, records[i]? = some record →
          ∃ e, entries[i]? = some e
            ∧ Entry.Records base (Key.decipher key record) e)
      ∨ ∃ i record, records[i]? = some record
        ∧ Unreadable ((Key.decipher key record).take 261)
        ∧ (∀ {j : Nat} {earlier : Bytes}, j < i →
          records[j]? = some earlier →
          ¬ Unreadable ((Key.decipher key earlier).take 261))
        ∧ readEntries name key base index records
          = .error (.badEntryPath name (index + i)) := by
  induction records with
  | nil => exact fun index => .inl ⟨[], rfl, rfl, fun hi => by cases hi⟩
  | cons first records ih =>
      intro index
      -- Either this record is the first without a path, or the rest decides.
      cases hfirst : Entry.ofRecord? base (Key.decipher key first) with
      | none =>
          refine .inr ⟨0, first, rfl, Entry.ofRecord?_eq_none_iff.mp hfirst,
            fun hj => absurd hj (Nat.not_lt_zero _), ?_⟩
          rw [readEntries, hfirst]
          rfl
      | some e =>
          rcases ih (index + 1) with ⟨entries, hread, hlength, hentries⟩
            | ⟨i, record, hi, hrecord, hbefore, hread⟩
          · refine .inl ⟨e :: entries, ?_, congrArg (· + 1) hlength, ?_⟩
            · rw [readEntries, hfirst]
              dsimp only
              rw [hread]
              rfl
            · intro i record hi
              cases i with
              | zero =>
                  cases hi
                  exact ⟨e, rfl, Entry.ofRecord?_eq_some_iff.mp hfirst⟩
              | succ i => exact hentries hi
          · refine .inr ⟨i + 1, record, hi, hrecord, ?_, ?_⟩
            · intro j earlier hj hearlier
              cases j with
              | zero =>
                  cases hearlier
                  intro hunreadable
                  cases hfirst.symm.trans
                    (Entry.ofRecord?_eq_none_iff.mpr hunreadable)
              | succ j => exact hbefore (Nat.lt_of_succ_lt_succ hj) hearlier
            · rw [readEntries, hfirst]
              dsimp only
              rw [hread, Nat.add_assoc, Nat.add_comm 1]
              rfl

/-- The records stand in a row behind the header. -/
theorem getElem?_records (file : Bytes) {count i : Nat} (hi : i < count) :
    (pieces 288 count (file.drop 305))[i]?
      = some (file.slice (305 + 288 * i) 288) := by
  rw [pieces_eq_map, List.getElem?_map, List.getElem?_range hi,
    Option.map_some, slice_drop, Nat.mul_comm]

-- ================================================================= opening

/-- Opening comes as far as the bytes allow, and ends as they say. -/
theorem opens_parse (name : String) (provider : Provider) (file : Bytes) :
    Opens name provider file (parse name (some provider) file) := by
  unfold parse
  by_cases hshort : file.length < tableStart
  · rw [if_pos hshort]
    exact .short hshort
  rw [if_neg hshort]
  have hlong : 305 ≤ file.length := Nat.le_of_not_lt hshort
  unfold openWith
  dsimp only
  rw [show Key.decipher (Key.ofSecret provider.headerSecret name)
      (file.slice digestSize headerSize) = clearHeader name provider file
    from rfl]
  cases hpath : Entry.pathOf? ((clearHeader name provider file).take 261) with
  | none =>
      rw [show Entry.pathSize = 261 from rfl, hpath]
      exact .foreign hlong (Entry.pathOf?_eq_none_iff.mp hpath)
  | some directory =>
      rw [show Entry.pathSize = 261 from rfl, hpath]
      -- the literals of the format in the place of their names
      change Opens name provider file
        (if file.length < 305 + recordCount name provider file * 288 then
          .error (.longTable name (recordCount name provider file) file.length)
        else do
          let entries ← readEntries name (tableKey name provider)
            (305 + recordCount name provider file * 288) 0
            (pieces 288 (recordCount name provider file) (file.drop 305))
          return ⟨name, provider, directory, entries, file.length, file, none⟩)
      rw [Nat.mul_comm _ 288]
      have hreadable :
          ¬ Unreadable ((clearHeader name provider file).take 261) := by
        rw [← Entry.pathOf?_eq_none_iff, hpath]
        exact Option.some_ne_none directory
      by_cases hroom :
          file.length < 305 + 288 * recordCount name provider file
      · rw [if_pos hroom]
        exact .overfull hlong hreadable hroom
      rw [if_neg hroom]
      have hfits := Nat.le_of_not_lt hroom
      rcases readEntries_cases name (tableKey name provider)
          (305 + 288 * recordCount name provider file)
          (pieces 288 (recordCount name provider file) (file.drop 305)) 0
        with ⟨entries, hread, hlength, hentries⟩
          | ⟨i, record, hi, hrecord, hbefore, hread⟩
      · rw [hread]
        rw [length_pieces] at hlength
        have hlisted : ∀ i, i < recordCount name provider file →
            ∃ e, entries[i]? = some e
              ∧ Entry.Records (305 + 288 * recordCount name provider file)
                (clearRecord name provider file i) e :=
          fun i hi => hentries (getElem?_records file hi)
        refine .opened hreadable hfits ?_ ⟨rfl, rfl, rfl, rfl,
          Entry.pathOf?_eq_some_iff.mp hpath, hlength, hlisted⟩
        intro i hi
        obtain ⟨e, -, hrecords⟩ := hlisted i hi
        rw [← Entry.pathOf?_eq_none_iff, hrecords.pathOf?_eq]
        exact Option.some_ne_none _
      · rw [hread, Nat.zero_add]
        have hcount : i < recordCount name provider file := by
          obtain ⟨hbound, -⟩ := List.getElem?_eq_some_iff.mp hi
          rwa [length_pieces] at hbound
        rw [getElem?_records file hcount] at hi
        cases hi
        exact .damaged hreadable hfits hcount hrecord fun j hj =>
          hbefore hj (getElem?_records file (Nat.lt_trans hj hcount))

end Container
end GameArchive.Package
