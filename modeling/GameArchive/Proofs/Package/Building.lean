/-
Containers can always be built.

Building encrypts the contents of each file and then its record, and the
header last. Each of these steps could fail, for an empty buffer or a key
that the cipher does not take. But records and headers are never empty,
empty contents are not encrypted and neither are strides that are not there,
and the keys are digits. So nothing fails, and what is built is what is
called the bytes of the draft.

Main statement: `build_eq`.
-/
import GameArchive.Proofs.Package.Contents
import GameArchive.Proofs.Package.Fields

namespace GameArchive.Package.Draft

open Bytes

-- =========================================================== none can fail

section

variable (secret : Bytes) (name : String)

/-- Strides are enciphered one by one, and none of them is refused unless it is
empty. -/
theorem sealStrides_eq {strides : List Bytes} (h : [] ∉ strides) :
    sealStrides (Key.ofSecret secret name) strides
      = .ok (strides.flatMap (Key.encipher (Key.ofSecret secret name))) := by
  induction strides with
  | nil => rfl
  | cons stride rest ih =>
      rw [List.mem_cons, not_or] at h
      obtain ⟨hstride, hrest⟩ := h
      rw [sealStrides, Key.encrypt_ofSecret _ _ (Ne.symm hstride), ih hrest]
      rfl

end

/-- No contents are refused: those without bytes have no strides. -/
theorem sealData_eq (draft : Draft) (e : DraftEntry) :
    draft.sealData e = .ok (draft.storedData e) := by
  unfold sealData storedData
  by_cases hencrypted : e.isEncrypted = true
  · by_cases hempty : e.data.isEmpty = true
    · rw [if_pos (by simp [hempty]), if_pos hencrypted,
        List.isEmpty_iff.mp hempty]
      rfl
    · rw [if_neg (by simp [hencrypted, hempty]), if_pos hencrypted]
      exact sealStrides_eq _ _ (nil_notMem_strides (by decide) _)
  · rw [if_pos (by simp [hencrypted]), if_neg hencrypted]

theorem record_ne_nil (offset : Nat) (e : DraftEntry) (stored : Bytes) :
    record offset e stored ≠ [] := by
  rw [← List.length_pos_iff, length_record]
  decide

/-- Files are sealed one after the other, each where those before it end. -/
theorem sealFiles_eq (draft : Draft) (secret : Bytes) (name : String) :
    ∀ (payload : Bytes) (entries : List DraftEntry),
      draft.sealFiles (Key.ofSecret secret name) payload entries
        = .ok (draft.table (Key.ofSecret secret name) payload.length entries,
            payload ++ entries.flatMap draft.storedData) := by
  intro payload entries
  induction entries generalizing payload with
  | nil =>
      rw [List.flatMap_nil, List.append_nil]
      rfl
  | cons e rest ih =>
      rw [sealFiles, sealData_eq]
      dsimp only [bind, Except.bind]
      rw [Key.encrypt_ofSecret _ _ (record_ne_nil _ e _)]
      dsimp only
      rw [ih, List.length_append, List.append_assoc]
      rfl

/-- A container can always be built. -/
theorem build_eq (draft : Draft) : draft.build = .ok draft.toBytes := by
  have hheader : draft.header ≠ [] := by
    rw [← List.length_pos_iff, length_header]
    decide
  unfold build
  dsimp only
  rw [sealFiles_eq, Key.encrypt_ofSecret _ _ hheader]
  rfl

end GameArchive.Package.Draft
