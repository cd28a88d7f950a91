/-
Opening makes exactly the distinctions of the format.

What `Opens` says of the ways in which opening ends is read the other way
here: each kind of outcome is that of exactly the files that are wrong in
one way, and the outcome of all others is what their records say.

On the way header, table and records are read and decrypted, and each of
these steps could fail. `parseChecked` makes them all; since header and
table are read only where there is room for them, and neither a header nor a
record is ever empty, none of them does.

Main statement: `parse_exact`.
-/
import GameArchive.Package.Container.Checks
import GameArchive.Proofs.Package.Format
import GameArchive.Proofs.Package.Keys

namespace GameArchive.Package

open Bytes

namespace Container

-- =============================================================== outcomes

section

variable (name : String) (provider : Provider) (file : Bytes)

/-- What each kind of outcome says of the file, and that there is no other
kind. -/
structure ParsesExactly (result : Except Error Container) : Prop where
  shortData_iff :
    (∃ expected actual, result = .error (.shortData expected actual))
      ↔ file.length < 305
  providerMismatch_iff :
    (∃ asked container, result = .error (.providerMismatch asked container))
      ↔ 305 ≤ file.length
        ∧ Unreadable ((clearHeader name provider file).take 261)
  malformed_iff :
    (∃ e, result = .error e ∧ e.isMalformedContainer = true)
      ↔ 305 ≤ file.length
        ∧ ¬ Unreadable ((clearHeader name provider file).take 261)
        ∧ (file.length < 305 + 288 * recordCount name provider file
          ∨ ∃ i, i < recordCount name provider file
            ∧ Unreadable ((clearRecord name provider file i).take 261))
  ok_iff : (∃ c, result = .ok c)
    ↔ 305 + 288 * recordCount name provider file ≤ file.length
      ∧ ¬ Unreadable ((clearHeader name provider file).take 261)
      ∧ ∀ i, i < recordCount name provider file →
        ¬ Unreadable ((clearRecord name provider file i).take 261)
  lists : ∀ c, result = .ok c → Lists name provider file c
  error_cases : ∀ e, result = .error e →
    e = .shortData 305 file.length
      ∨ e = .providerMismatch (some provider) name
      ∨ e = .longTable name (recordCount name provider file) file.length
      ∨ ∃ i, i < recordCount name provider file ∧ e = .badEntryPath name i

variable {name provider file}
variable {result : Except Error Container}

/-- Only data that are too short for header and digest are called short. -/
theorem Opens.shortData_iff (h : Opens name provider file result) :
    (∃ expected actual, result = .error (.shortData expected actual))
      ↔ file.length < 305 := by
  cases h with
  | short hshort => exact ⟨fun _ => hshort, fun _ => ⟨_, _, rfl⟩⟩
  | foreign hlong | overfull hlong => simp [Nat.not_lt.mpr hlong]
  | damaged _ hroom => simp; omega
  | opened _ hroom => simp; omega

/-- Only a header without a path is called foreign. -/
theorem Opens.providerMismatch_iff (h : Opens name provider file result) :
    (∃ asked container, result = .error (.providerMismatch asked container))
      ↔ 305 ≤ file.length
        ∧ Unreadable ((clearHeader name provider file).take 261) := by
  cases h with
  | short hshort => simp [Nat.not_le.mpr hshort]
  | foreign hlong hpath => simp [hlong, hpath]
  | overfull _ hpath | damaged hpath | opened hpath => simp [hpath]

/-- A container is malformed if its table does not fit, or one of its records
has no path. -/
theorem Opens.malformed_iff (h : Opens name provider file result) :
    (∃ e, result = .error e ∧ e.isMalformedContainer = true)
      ↔ 305 ≤ file.length
        ∧ ¬ Unreadable ((clearHeader name provider file).take 261)
        ∧ (file.length < 305 + 288 * recordCount name provider file
          ∨ ∃ i, i < recordCount name provider file
            ∧ Unreadable ((clearRecord name provider file i).take 261)) := by
  cases h with
  | short hshort => simp [Error.isMalformedContainer, Nat.not_le.mpr hshort]
  | foreign _ hpath => simp [Error.isMalformedContainer, hpath]
  | overfull hlong hpath hroom =>
      simp [Error.isMalformedContainer, hlong, hpath, hroom]
  | damaged hpath hroom hi hrecord =>
      exact ⟨fun _ => ⟨by omega, hpath, .inr ⟨_, hi, hrecord⟩⟩,
        fun _ => ⟨_, rfl, rfl⟩⟩
  | opened hpath hroom hrecords =>
      constructor
      · rintro ⟨e, herror, -⟩
        cases herror
      · rintro ⟨-, -, hover | ⟨i, hi, hrecord⟩⟩
        · omega
        · exact absurd hrecord (hrecords i hi)

/-- A container is opened if it is neither short nor foreign nor malformed. -/
theorem Opens.ok_iff (h : Opens name provider file result) :
    (∃ c, result = .ok c)
      ↔ 305 + 288 * recordCount name provider file ≤ file.length
        ∧ ¬ Unreadable ((clearHeader name provider file).take 261)
        ∧ ∀ i, i < recordCount name provider file →
          ¬ Unreadable ((clearRecord name provider file i).take 261) := by
  cases h with
  | short hshort => simp; omega
  | foreign _ hpath => simp [hpath]
  | overfull _ _ hroom => simp [Nat.not_le.mpr hroom]
  | damaged _ _ hi hrecord =>
      constructor
      · rintro ⟨c, hc⟩
        cases hc
      · rintro ⟨-, -, hrecords⟩
        exact absurd hrecord (hrecords _ hi)
  | opened hpath hroom hrecords =>
      exact ⟨fun _ => ⟨hroom, hpath, hrecords⟩, fun _ => ⟨_, rfl⟩⟩

/-- How far opening comes decides all four kinds of outcome. -/
theorem Opens.parsesExactly (h : Opens name provider file result) :
    ParsesExactly name provider file result where
  shortData_iff := h.shortData_iff
  providerMismatch_iff := h.providerMismatch_iff
  malformed_iff := h.malformed_iff
  ok_iff := h.ok_iff
  lists := by
    rintro c rfl
    cases h with
    | opened _ _ _ hlists => exact hlists
  error_cases := by
    rintro e rfl
    cases h with
    | short => exact .inl rfl
    | foreign => exact .inr (.inl rfl)
    | overfull => exact .inr (.inr (.inl rfl))
    | damaged _ _ hi => exact .inr (.inr (.inr ⟨_, hi, rfl⟩))

end

-- ================================================================= checks

/-- Reading inside the file never fails. -/
theorem readExact_eq {file : Bytes} {offset length : Nat}
    (h : offset + length ≤ file.length) :
    readExact file offset length = .ok (file.slice offset length) := by
  have hread : (file.slice offset length).length = length := by
    rw [length_slice]
    omega
  unfold readExact
  dsimp only
  rw [hread, if_neg (Nat.lt_irrefl length)]

/-- Decryption never fails with a key that was made from a secret. -/
theorem decryptExact_eq (secret : Bytes) (name : String) {data : Bytes}
    (hdata : data ≠ []) :
    decryptExact (Key.ofSecret secret name) data
      = .ok (Key.decipher (Key.ofSecret secret name) data) := by
  unfold decryptExact
  rw [Key.decrypt_ofSecret secret name hdata]
  rfl

/-- The fields of a whole record can all be taken. -/
theorem entryChecked?_eq (base : Nat) {record : Bytes}
    (h : record.length = 288) :
    entryChecked? base record = Entry.ofRecord? base record := by
  have hflag : record[Entry.pathSize + 13]?
      = some (record.byteAt (Entry.pathSize + 13)) := by
    have hin : Entry.pathSize + 13 < record.length := by
      rw [h]
      decide
    unfold byteAt
    rw [List.getD_eq_getElem?_getD, List.getElem?_eq_getElem hin,
      Option.getD_some]
  have hword : ∀ {offset : Nat}, offset + 4 ≤ 288 →
      record.u32At? offset = some (record.u32At offset) :=
    fun hoffset => u32At?_eq_some (by omega)
  unfold entryChecked? Entry.ofRecord?
  rw [hflag, hword (by decide), hword (by decide), hword (by decide)]
  cases Entry.pathOf? (record.take Entry.pathSize) with
  | none => rfl
  | some path => rfl

/-- No record of a table is empty. -/
theorem readEntriesChecked_eq (name : String) (secret : Bytes) (base : Nat)
    {records : List Bytes} (h : AllOfSize 288 records) (index : Nat) :
    readEntriesChecked name (Key.ofSecret secret name) base index records
      = readEntries name (Key.ofSecret secret name) base index records := by
  induction records generalizing index with
  | nil => rfl
  | cons record records ih =>
      obtain ⟨hrecord, hrecords⟩ := AllOfSize.cons_iff.mp h
      have hdata : record ≠ [] := by
        rintro rfl
        cases hrecord
      have hclear : (Key.decipher (Key.ofSecret secret name) record).length
          = 288 :=
        (Key.length_decipher ..).trans hrecord
      rw [readEntriesChecked, readEntries, decryptExact_eq secret name hdata,
        ← entryChecked?_eq base hclear]
      simp only [bind, Except.bind]
      cases entryChecked? base
          (Key.decipher (Key.ofSecret secret name) record) with
      | none => rfl
      | some entry =>
          exact congrArg (Except.bind · fun tail => .ok (entry :: tail))
            (ih hrecords (index + 1))

/-- The records are those that are read at once, before any is decrypted. -/
theorem pieces_table (file : Bytes) (count : Nat) :
    pieces Entry.recordSize count
        (file.slice tableStart (count * Entry.recordSize))
      = pieces Entry.recordSize count (file.drop tableStart) := by
  refine (pieces_take (Nat.le_refl count) (file.drop tableStart)).trans ?_
  exact List.take_of_length_le (Nat.le_of_eq (length_pieces ..))

/-- With all its checks, reading the table ends as it does without them. -/
theorem readTableChecked_eq (name : String) (provider : Provider)
    (file : Bytes) (directory : String) (count : Nat) :
    readTableChecked name provider file directory count
      = if file.length < payloadStart count then
          .error (.longTable name count file.length)
        else do
          let entries ← readEntries name
            (Key.ofSecret provider.headerSecret name) (payloadStart count) 0
            (pieces Entry.recordSize count (file.drop tableStart))
          return ⟨name, provider, directory, entries, file.length, file,
            none⟩ := by
  unfold readTableChecked payloadStart
  dsimp only
  by_cases hroom : file.length < tableStart + count * Entry.recordSize
  · rw [if_pos hroom, if_pos hroom]
  have hfits := Nat.le_of_not_lt hroom
  have hrecords : AllOfSize Entry.recordSize
      (pieces Entry.recordSize count (file.drop tableStart)) := by
    refine allOfSize_pieces ?_
    rw [List.length_drop]
    omega
  rw [if_neg hroom, if_neg hroom, readExact_eq hfits]
  simp only [bind, Except.bind]
  rw [pieces_table, readEntriesChecked_eq name provider.headerSecret _ hrecords]

/-- No check of the checked parser ever fails by itself: it is the parser. -/
theorem parseChecked_eq (name : String) (provider : Provider) (file : Bytes) :
    parseChecked name provider file = parse name (some provider) file := by
  unfold parseChecked parse
  by_cases hshort : file.length < tableStart
  · rw [if_pos hshort, if_pos hshort]
  rw [if_neg hshort, if_neg hshort]
  have hlong : digestSize + headerSize ≤ file.length :=
    Nat.le_of_not_lt hshort
  have hheader : (file.slice digestSize headerSize).length = headerSize := by
    rw [length_slice]
    exact Nat.min_eq_left (by omega)
  have hdata : file.slice digestSize headerSize ≠ [] := by
    rw [← List.length_pos_iff, hheader]
    decide
  rw [readExact_eq hlong]
  simp only [bind, Except.bind]
  rw [decryptExact_eq provider.headerSecret name hdata]
  unfold openWith
  dsimp only
  cases Entry.pathOf? ((Key.decipher (Key.ofSecret provider.headerSecret name)
      (file.slice digestSize headerSize)).take Entry.pathSize) with
  | none => rfl
  | some directory =>
      -- the count lies within the header
      rw [u32At?_eq_some (by rw [Key.length_decipher, hheader]; decide)]
      exact readTableChecked_eq ..

-- ============================================================== exactness

/-- Opening a byte string with the secrets of a provider distinguishes what
the format distinguishes, and none of its steps fails in another way. -/
theorem parse_exact (name : String) (provider : Provider) (file : Bytes) :
    ParsesExactly name provider file (parse name (some provider) file)
      ∧ parseChecked name provider file = parse name (some provider) file :=
  ⟨(opens_parse name provider file).parsesExactly,
    parseChecked_eq name provider file⟩

end Container
end GameArchive.Package
