/-
Contents as they are stored in a container.

Encrypted contents are filled up to whole blocks and encrypted stride by
stride. Encryption keeps the length of a stride, so the strides that a
reader cuts are those that the writer has cut, the last one included; what
the reader gets is the contents and their filling.

Main statement: `decipherStrides_storedData`.
-/
import GameArchive.Package.Draft
import GameArchive.Proofs.Bytes.Pieces
import GameArchive.Proofs.Package.Keys

namespace GameArchive.Package

open Bytes

/-- Strides that were enciphered one by one are deciphered one by one. -/
theorem Container.decipherStrides_encipher (key data : Bytes) :
    Container.decipherStrides key
      ((data.strides Container.strideSize).flatMap (Key.encipher key))
        = data := by
  have hundone : (fun stride => Key.decipher key (Key.encipher key stride))
      = id :=
    funext fun stride => Key.decipher_encipher key stride
  unfold Container.decipherStrides
  rw [strides_flatMap (Key.length_encipher key) (by decide),
    List.flatMap_map, hundone, List.flatMap_id,
    flatten_strides _ data (by decide)]

namespace Draft

/-- The contents and what fills up their last block. -/
def filled (e : DraftEntry) : Bytes :=
  if e.isEncrypted then e.data.padTo 16 else e.data

/-- Only what was filled in lies behind the contents. -/
theorem take_filled (e : DraftEntry) :
    (filled e).take e.data.length = e.data := by
  unfold filled
  split
  · exact List.take_left
  · exact List.take_length

theorem length_data_le (e : DraftEntry) :
    e.data.length ≤ (filled e).length := by
  have hprefix := List.length_take_le' e.data.length (filled e)
  rwa [take_filled] at hprefix

/-- Fewer than 16 bytes fill up the last block. -/
theorem length_filled {e : DraftEntry} (hencrypted : e.isEncrypted = true) :
    (filled e).length
      = e.data.length + (16 - e.data.length % 16) % 16 := by
  unfold filled padTo
  rw [if_pos hencrypted, List.length_append, length_zeros]

variable (draft : Draft) (e : DraftEntry)

/-- What is stored is as long as the filled contents, encrypted or not. -/
theorem length_storedData :
    (draft.storedData e).length = (filled e).length := by
  unfold storedData filled
  split
  · rw [length_flatMap_keep (Key.length_encipher _),
      flatten_strides _ _ (by decide)]
  · rfl

/-- What is stored is read with its filling. -/
theorem decipherStrides_storedData :
    (if e.isEncrypted then Container.decipherStrides
        (Key.ofSecret draft.provider.dataSecret (fileName e.path))
        (draft.storedData e)
      else draft.storedData e) = filled e := by
  unfold storedData filled
  by_cases hencrypted : e.isEncrypted = true
  · rw [if_pos hencrypted, if_pos hencrypted, if_pos hencrypted]
    exact Container.decipherStrides_encipher _ _
  · rw [if_neg hencrypted, if_neg hencrypted, if_neg hencrypted]

end Draft
end GameArchive.Package
