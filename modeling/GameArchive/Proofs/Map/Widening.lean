/-
What narrowing a record loses.

A standard record is widened again by the layout that narrowed it: an
unsigned field gets zeros, a signed one copies of its sign, and what was
left out comes back as zeros. A vendor record survives this, but for what
was left out, exactly if no field of it was reported: a field widens to
itself just if it fits, and the parts of a record do not touch each other.

All of it is by recursion on the layout, for any layout.

Main statement: `agree_widen_narrow_iff`.
-/
import GameArchive.Map.Record
import GameArchive.Proofs.Bytes.Pieces

namespace GameArchive.Map

open Bytes

-- ============================================================== one field

namespace Width

/-- The 32-bit field that a narrow form stands for. -/
def widen (width : Width) (narrow : Bytes) : UInt32 :=
  match width with
  | .u8 => (narrow.byteAt 0).toUInt32
  | .u16 => (narrow.u16At 0).toUInt32
  | .i16 => (narrow.u16At 0).toInt16.toInt32.toUInt32

/-- A word is widened from its lowest byte exactly if it fits into one. -/
theorem widen_u8 (word : UInt32) (rest : Bytes) :
    Width.u8.widen (Bytes.ofNat 1 word.toNat ++ rest)
      = word ↔ word.toNat < 0x100 := by
  have hwiden : (Width.u8.widen (Bytes.ofNat 1 word.toNat ++ rest)).toNat
      = word.toNat % 0x100 := by
    unfold widen
    rw [Bytes.ofNat, List.cons_append, byteAt_head, UInt8.toNat_toUInt32,
      UInt8.toNat_ofNat']
  rw [← UInt32.toNat_inj, hwiden]
  omega

/-- A word is widened from its lower half exactly if it fits there. -/
theorem widen_u16 (word : UInt32) (rest : Bytes) :
    Width.u16.widen (Bytes.ofNat 2 word.toNat ++ rest)
      = word ↔ word.toNat < 0x10000 := by
  have hwiden : (Width.u16.widen (Bytes.ofNat 2 word.toNat ++ rest)).toNat
      = word.toNat % 0x10000 := by
    unfold widen
    rw [UInt16.toNat_toUInt32, u16At_ofNat]
    exact UInt16.toNat_ofNat'
  rw [← UInt32.toNat_inj, hwiden]
  omega

/-- Where the half is signed, the sign has to fit as well. -/
theorem widen_i16 (word : UInt32) (rest : Bytes) :
    Width.i16.widen (Bytes.ofNat 2 word.toNat ++ rest) = word
      ↔ -0x8000 ≤ word.toInt32.toInt ∧ word.toInt32.toInt < 0x8000 := by
  have hwiden :
      (Width.i16.widen (Bytes.ofNat 2 word.toNat ++ rest)).toInt32.toInt
        = Int.bmod (word.toNat % 0x10000 : Nat) 0x10000 := by
    unfold widen
    rw [Int32.toInt32_toUInt32, Int16.toInt_toInt32, u16At_ofNat]
    refine (BitVec.toInt_eq_toNat_bmod _).trans ?_
    exact congrArg (fun m : Nat => Int.bmod m 0x10000) UInt16.toNat_ofNat'
  have hword : word.toInt32.toInt = Int.bmod word.toNat 0x100000000 :=
    BitVec.toInt_eq_toNat_bmod _
  have hsigned : ∀ x y : UInt32,
      x = y ↔ x.toInt32.toInt = y.toInt32.toInt := fun x y =>
    ⟨fun h => by rw [h],
      fun h => congrArg Int32.toUInt32 (Int32.toInt_inj.mp h)⟩
  have hlt := word.toNat_lt
  rw [hsigned, hwiden, hword, Int.bmod_def, Int.bmod_def]
  omega

/-- A field widens to itself exactly if it fits. -/
theorem widen_eq_iff (width : Width) (word : UInt32) (rest : Bytes) :
    width.widen (Bytes.ofNat width.size word.toNat ++ rest) = word
      ↔ width.fits (width.value word) = true := by
  cases width with
  | u8 =>
      have hfits : u8.fits (u8.value word) = true ↔ word.toNat < 0x100 := by
        simp only [fits, decide_eq_true_eq]
        simp only [value]
        omega
      rw [hfits]
      exact widen_u8 word rest
  | u16 =>
      have hfits : u16.fits (u16.value word) = true ↔ word.toNat < 0x10000 := by
        simp only [fits, decide_eq_true_eq]
        simp only [value]
        omega
      rw [hfits]
      exact widen_u16 word rest
  | i16 =>
      have hfits : i16.fits (i16.value word) = true
          ↔ -0x8000 ≤ word.toInt32.toInt ∧ word.toInt32.toInt < 0x8000 := by
        simp only [fits, Bool.and_eq_true, decide_eq_true_eq]
        rfl
      rw [hfits]
      exact widen_i16 word rest

end Width

-- ============================================================ one record

namespace RecordLayout

@[simp] theorem narrow_keep (length : Nat) (rest : RecordLayout)
    (record : Bytes) :
    narrow (.keep length :: rest) record
      = (record.take length ++ (narrow rest (record.drop length)).1,
        (narrow rest (record.drop length)).2) := rfl

@[simp] theorem narrow_drop (length : Nat) (rest : RecordLayout)
    (record : Bytes) :
    narrow (.drop length :: rest) record = narrow rest (record.drop length) :=
  rfl

@[simp] theorem narrow_fill (length : Nat) (rest : RecordLayout)
    (record : Bytes) :
    narrow (.fill length :: rest) record
      = (zeros length ++ (narrow rest record).1, (narrow rest record).2) := rfl

/-- A field is narrowed whether or not it fits; if it does not, this is reported
before what comes later in the record. -/
@[simp] theorem narrow_narrow (width : Width) (field : String)
    (rest : RecordLayout) (record : Bytes) :
    narrow (.narrow width field :: rest) record
      = (Bytes.ofNat width.size (record.u32At 0).toNat
          ++ (narrow rest (record.drop 4)).1,
        if width.fits (width.value (record.u32At 0)) then
          (narrow rest (record.drop 4)).2
        else ⟨field, width.value (record.u32At 0)⟩
          :: (narrow rest (record.drop 4)).2) := rfl

-- A record that is long enough for a layout has its first part whole, and
-- is long enough for the other parts behind it.
theorem length_take_part {part : Part} {rest : RecordLayout}
    {record : Bytes} (hlong : sourceSize (part :: rest) ≤ record.length) :
    (record.take part.sourceSize).length = part.sourceSize := by
  rw [List.length_take]
  exact Nat.min_eq_left (Nat.le_trans (Nat.le_add_right _ _) hlong)

/-- Without its first part, a record is long enough for the parts after it. -/
theorem sourceSize_le_drop {part : Part} {rest : RecordLayout}
    {record : Bytes} (hlong : sourceSize (part :: rest) ≤ record.length) :
    sourceSize rest ≤ (record.drop part.sourceSize).length := by
  rw [List.length_drop]
  unfold sourceSize at hlong
  omega

/-- A record that was narrowed has the size of those that are written. -/
theorem length_narrow (layout : RecordLayout) :
    ∀ {record : Bytes}, layout.sourceSize ≤ record.length →
      (layout.narrow record).1.length = layout.targetSize := by
  induction layout with
  | nil => intro record _; rfl
  | cons part rest ih =>
      intro record hlong
      have htarget := ih (sourceSize_le_drop hlong)
      cases part with
      | keep length =>
          have htake : (record.take length).length = length :=
            length_take_part hlong
          rw [narrow_keep, List.length_append, htake]
          exact congrArg (length + ·) htarget
      | drop length =>
          rw [narrow_drop]
          exact htarget.trans (Nat.zero_add _).symm
      | fill length =>
          rw [narrow_fill, List.length_append, length_zeros]
          exact congrArg (length + ·) htarget
      | narrow width field =>
          rw [narrow_narrow, List.length_append, length_ofNat]
          exact congrArg (width.size + ·) htarget

-- ============================================================ widened

/-- The vendor record that a standard record stands for. -/
def widen : RecordLayout → Bytes → Bytes
  | [], _ => []
  | .keep length :: rest, record =>
    record.take length ++ widen rest (record.drop length)
  | .drop length :: rest, record => zeros length ++ widen rest record
  | .fill length :: rest, record => widen rest (record.drop length)
  | .narrow width _ :: rest, record =>
    ofUInt32 (width.widen record) ++ widen rest (record.drop width.size)

/-- Whether a part is left out. -/
def leavesOut : Part → Bool
  | .drop _ => true
  | _ => false

/-- What a layout that begins at an offset leaves out: runs of bytes, each
from one place up to another. -/
def gaps : (offset : Nat) → RecordLayout → List (Nat × Nat)
  | _, [] => []
  | offset, part :: rest =>
    if leavesOut part then
      (offset, offset + part.sourceSize) :: gaps (offset + part.sourceSize) rest
    else gaps (offset + part.sourceSize) rest

/-- Whether a place lies in no gap. -/
def Kept (gaps : List (Nat × Nat)) (place : Nat) : Prop :=
  ∀ gap ∈ gaps, ¬ (gap.1 ≤ place ∧ place < gap.2)

/-- No gap begins before the layout does. -/
theorem offset_le_of_mem_gaps (layout : RecordLayout) :
    ∀ {offset : Nat} {gap : Nat × Nat}, gap ∈ layout.gaps offset →
      offset ≤ gap.1 := by
  induction layout with
  | nil => intro offset gap hgap; cases hgap
  | cons part rest ih =>
      intro offset gap hgap
      unfold gaps at hgap
      split at hgap
      · rcases List.mem_cons.mp hgap with rfl | hrest
        · exact Nat.le_refl _
        · exact Nat.le_trans (Nat.le_add_right _ _) (ih hrest)
      · exact Nat.le_trans (Nat.le_add_right _ _) (ih hgap)

/-- Within the first part, a place is kept with the part. -/
theorem kept_head_iff {part : Part} {rest : RecordLayout}
    {offset i : Nat} (hi : i < part.sourceSize) :
    Kept (gaps offset (part :: rest)) (offset + i)
      ↔ leavesOut part = false := by
  have hrest : Kept (gaps (offset + part.sourceSize) rest) (offset + i) := by
    intro gap hgap hplace
    have hle := offset_le_of_mem_gaps rest hgap
    omega
  unfold gaps
  by_cases hout : leavesOut part = true
  · rw [if_pos hout, hout]
    constructor
    · intro hkept
      exact absurd ⟨Nat.le_add_right _ _, Nat.add_lt_add_left hi _⟩
        (hkept _ List.mem_cons_self)
    · intro h
      cases h
  · rw [if_neg hout]
    exact ⟨fun _ => Bool.eq_false_iff.mpr hout, fun _ => hrest⟩

/-- Behind the first part, a place is kept as the other parts keep it. -/
theorem kept_tail_iff (part : Part) (rest : RecordLayout)
    (offset i : Nat) :
    Kept (gaps offset (part :: rest)) (offset + part.sourceSize + i)
      ↔ Kept (gaps (offset + part.sourceSize) rest)
          (offset + part.sourceSize + i) := by
  conv =>
    lhs
    unfold gaps
  split
  · constructor
    · intro h gap hgap
      exact h gap (List.mem_cons_of_mem _ hgap)
    · intro h gap hgap
      rcases List.mem_cons.mp hgap with rfl | hrest
      · omega
      · exact h gap hrest
  · exact Iff.rfl

/-- Whether records are the same but for what a layout leaves out. -/
def Agree (offset : Nat) (layout : RecordLayout) (a b : Bytes) : Prop :=
  ∀ i, i < layout.sourceSize → Kept (layout.gaps offset) (offset + i) →
    a[i]? = b[i]?

/-- Records agree part by part. -/
theorem agree_cons_iff {part : Part} {rest : RecordLayout} {offset : Nat}
    {x y a b : Bytes}
    (hx : x.length = part.sourceSize) (hy : y.length = part.sourceSize) :
    Agree offset (part :: rest) (x ++ a) (y ++ b)
      ↔ (leavesOut part = false → x = y)
        ∧ Agree (offset + part.sourceSize) rest a b := by
  constructor
  · intro h
    constructor
    · intro hkept
      refine List.ext_getElem? fun i => ?_
      by_cases hi : i < part.sourceSize
      · have heq := h i (Nat.lt_add_right _ hi) ((kept_head_iff hi).mpr hkept)
        rw [List.getElem?_append_left (hx.symm ▸ hi),
          List.getElem?_append_left (hy.symm ▸ hi)] at heq
        exact heq
      · rw [List.getElem?_eq_none (by omega), List.getElem?_eq_none (by omega)]
    · intro i hi hkept
      have heq := h (part.sourceSize + i) (Nat.add_lt_add_left hi _) (by
        rw [← Nat.add_assoc]
        exact (kept_tail_iff part rest offset i).mpr hkept)
      rw [List.getElem?_append_right (by omega),
        List.getElem?_append_right (by omega), hx, hy,
        Nat.add_sub_cancel_left] at heq
      exact heq
  · rintro ⟨hhead, htail⟩ i hi hkept
    by_cases hlt : i < part.sourceSize
    · rw [List.getElem?_append_left (by omega),
        List.getElem?_append_left (by omega),
        hhead ((kept_head_iff hlt).mp hkept)]
    · obtain ⟨i, rfl⟩ := Nat.exists_eq_add_of_le (Nat.le_of_not_lt hlt)
      rw [← Nat.add_assoc, kept_tail_iff] at hkept
      rw [List.getElem?_append_right (by omega),
        List.getElem?_append_right (by omega), hx, hy,
        Nat.add_sub_cancel_left]
      exact htail i (Nat.lt_of_add_lt_add_left hi) hkept

/-- Records agree if they do on the first part, unless it is left out, and on
the rest. -/
theorem agree_head_iff {part : Part} {rest : RecordLayout} {offset : Nat}
    {record x a : Bytes} (hlong : sourceSize (part :: rest) ≤ record.length)
    (hx : x.length = part.sourceSize) :
    Agree offset (part :: rest) (x ++ a) record
      ↔ (leavesOut part = false → x = record.take part.sourceSize)
        ∧ Agree (offset + part.sourceSize) rest a
          (record.drop part.sourceSize) := by
  have hcons : Agree offset (part :: rest) (x ++ a)
      (record.take part.sourceSize ++ record.drop part.sourceSize) ↔ _ :=
    agree_cons_iff hx (length_take_part hlong)
  rw [List.take_append_drop] at hcons
  exact hcons

theorem widen_keep {length : Nat} (rest : RecordLayout) {x : Bytes}
    (hx : x.length = length) (out : Bytes) :
    widen (.keep length :: rest) (x ++ out) = x ++ widen rest out := by
  rw [widen, List.take_left' hx, List.drop_left' hx]

theorem widen_fill (length : Nat) (rest : RecordLayout) (out : Bytes) :
    widen (.fill length :: rest) (zeros length ++ out) = widen rest out := by
  rw [widen, List.drop_left' (length_zeros length)]

/-- A field is widened from what it was narrowed to. -/
theorem widen_narrow (width : Width) (field : String) (rest : RecordLayout)
    (n : Nat) (out : Bytes) :
    widen (.narrow width field :: rest) (Bytes.ofNat width.size n ++ out)
      = ofUInt32 (width.widen (Bytes.ofNat width.size n ++ out))
        ++ widen rest out := by
  rw [widen, List.drop_left' (length_ofNat _ _)]

/-- A record survives narrowing exactly if nothing of it is reported. -/
theorem agree_widen_narrow_iff (layout : RecordLayout) :
    ∀ {offset : Nat} {record : Bytes}, layout.sourceSize ≤ record.length →
      (Agree offset layout (layout.widen (layout.narrow record).1) record
        ↔ (layout.narrow record).2 = []) := by
  induction layout with
  | nil =>
      intro offset record _
      exact ⟨fun _ => rfl, fun _ i hi => by cases hi⟩
  | cons part rest ih =>
      intro offset record hlong
      have hrest := @ih (offset + part.sourceSize) _ (sourceSize_le_drop hlong)
      -- Part by part; only a field can be reported, and only a field can
      -- differ.
      cases part with
      | keep length =>
          have htake : (record.take length).length = length :=
            length_take_part hlong
          rw [narrow_keep, widen_keep rest htake]
          refine (agree_head_iff hlong htake).trans ?_
          exact ⟨fun h => hrest.mp h.2, fun h => ⟨fun _ => rfl, hrest.mpr h⟩⟩
      | drop length =>
          refine (agree_head_iff hlong (length_zeros length)).trans ?_
          exact ⟨fun h => hrest.mp h.2,
            fun h => ⟨fun hkept => (by cases hkept), hrest.mpr h⟩⟩
      | fill length =>
          rw [narrow_fill, widen_fill, ← List.nil_append (widen rest _)]
          refine (agree_head_iff hlong rfl).trans ?_
          exact ⟨fun h => hrest.mp h.2, fun h => ⟨fun _ => rfl, hrest.mpr h⟩⟩
      | narrow width field =>
          have hword : 4 ≤ record.length :=
            Nat.le_trans (Nat.le_add_right _ _) hlong
          have hfield : ofUInt32 (width.widen
              (Bytes.ofNat width.size (record.u32At 0).toNat
                ++ (narrow rest (record.drop 4)).1)) = record.take 4
              ↔ width.fits (width.value (record.u32At 0)) = true := by
            rw [ofUInt32_eq_take_iff hword, Width.widen_eq_iff]
          rw [narrow_narrow, widen_narrow]
          refine (agree_head_iff hlong (length_ofUInt32 _)).trans ?_
          split
          case isTrue hfits =>
              exact ⟨fun h => hrest.mp h.2,
                fun h => ⟨fun _ => hfield.mpr hfits, hrest.mpr h⟩⟩
          case isFalse hfits =>
              exact ⟨fun h => absurd (hfield.mp (h.1 rfl)) hfits,
                fun h => by cases h⟩

end RecordLayout
end GameArchive.Map
