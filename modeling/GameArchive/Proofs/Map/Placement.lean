/-
Where the parts of a record come to lie.

A layout names its parts in order, so the place of a part in either record is
the size of the parts before it. A layout can be cut in two before any part:
the front of it makes the front of a record, and the back of it makes the
rest. What is found at the place of a part, on the way there and on the way
back, is therefore what the part makes of its own bytes.

Main statements: `overflows_eq`, `slice_narrow_field`, `slice_narrow_run`,
`u32At_widen_field`, `slice_widen_run`.
-/
import GameArchive.Proofs.Map.Widening

namespace GameArchive.Map.RecordLayout

open Bytes

-- ================================================================ places

/-- A part and where it begins in both records. -/
structure Placed where
  source : Nat
  target : Nat
  part : Part

/-- The parts of a layout that begins at these places. -/
def placed : (source target : Nat) → RecordLayout → List Placed
  | _, _, [] => []
  | source, target, part :: rest =>
    ⟨source, target, part⟩
      :: placed (source + part.sourceSize) (target + part.targetSize) rest

/-- A field that is narrowed: its places in both records, its form and its
name. -/
structure Field where
  source : Nat
  target : Nat
  width : Width
  name : String
deriving DecidableEq

/-- A run of bytes that stay: its places in both records and its length. -/
structure Run where
  source : Nat
  target : Nat
  length : Nat
deriving DecidableEq

/-- The field that a part narrows. -/
def Placed.field? : Placed → Option Field
  | ⟨source, target, .narrow width name⟩ => some ⟨source, target, width, name⟩
  | _ => none

/-- The run that a part keeps. -/
def Placed.run? : Placed → Option Run
  | ⟨source, target, .keep length⟩ => some ⟨source, target, length⟩
  | _ => none

/-- The fields that a layout narrows, in order. -/
def fields (layout : RecordLayout) : List Field :=
  (layout.placed 0 0).filterMap Placed.field?

/-- The runs that a layout keeps, in order. -/
def runs (layout : RecordLayout) : List Run :=
  (layout.placed 0 0).filterMap Placed.run?

/-- A part that has a place has a front of the layout before it. -/
theorem exists_split {layout : RecordLayout} {p : Placed} :
    ∀ {source target : Nat}, p ∈ layout.placed source target →
      ∃ front back : RecordLayout, layout = front ++ p.part :: back
        ∧ p.source = source + front.sourceSize
        ∧ p.target = target + front.targetSize := by
  induction layout with
  | nil => intro source target hp; cases hp
  | cons part rest ih =>
      intro source target hp
      rcases List.mem_cons.mp hp with rfl | hrest
      · exact ⟨[], rest, rfl, rfl, rfl⟩
      · obtain ⟨front, back, rfl, hsource, htarget⟩ := ih hrest
        exact ⟨part :: front, back, rfl, hsource.trans (Nat.add_assoc ..),
          htarget.trans (Nat.add_assoc ..)⟩

/-- A field of a layout is behind the parts before it, in the record that is
read and in the one that is written. -/
theorem exists_of_mem_fields {layout : RecordLayout} {f : Field}
    (hf : f ∈ layout.fields) :
    ∃ front back : RecordLayout,
      layout = front ++ .narrow f.width f.name :: back
        ∧ f.source = front.sourceSize ∧ f.target = front.targetSize := by
  obtain ⟨⟨source, target, part⟩, hp, hfield⟩ := List.mem_filterMap.mp hf
  obtain ⟨front, back, rfl, hsource, htarget⟩ := exists_split hp
  cases part with
  | narrow width name =>
      cases hfield
      exact ⟨front, back, rfl, hsource.trans (Nat.zero_add _),
        htarget.trans (Nat.zero_add _)⟩
  | _ => cases hfield

/-- A run of bytes that is kept is behind the parts before it, in both
records. -/
theorem exists_of_mem_runs {layout : RecordLayout} {r : Run}
    (hr : r ∈ layout.runs) :
    ∃ front back : RecordLayout, layout = front ++ .keep r.length :: back
      ∧ r.source = front.sourceSize ∧ r.target = front.targetSize := by
  obtain ⟨⟨source, target, part⟩, hp, hrun⟩ := List.mem_filterMap.mp hr
  obtain ⟨front, back, rfl, hsource, htarget⟩ := exists_split hp
  cases part with
  | keep length =>
      cases hrun
      exact ⟨front, back, rfl, hsource.trans (Nat.zero_add _),
        htarget.trans (Nat.zero_add _)⟩
  | _ => cases hrun

-- ============================================================== reported

/-- The value of a field in a record. -/
def Field.value (f : Field) (record : Bytes) : Int :=
  f.width.value (record.u32At f.source)

/-- The field with its value, if that does not fit. -/
def Field.overflow? (f : Field) (record : Bytes) : Option Overflow :=
  if f.width.fits (f.value record) then none
  else some ⟨f.name, f.value record⟩

theorem u32At_drop (record : Bytes) (offset : Nat) :
    u32At (record.drop offset) 0 = record.u32At offset := by
  unfold u32At
  rw [slice_drop, Nat.add_zero]

/-- What is reported of a record are its fields that do not fit. -/
theorem overflows_eq (layout : RecordLayout) (record : Bytes) :
    (layout.narrow record).2 = layout.fields.filterMap (·.overflow? record) := by
  have hbehind : ∀ source target : Nat,
      (layout.narrow (record.drop source)).2
        = ((layout.placed source target).filterMap Placed.field?).filterMap
            (·.overflow? record) := by
    induction layout with
    | nil => exact fun _ _ => rfl
    | cons part rest ih =>
        intro source target
        cases part with
        | keep length =>
            rw [narrow_keep, List.drop_drop]
            exact ih _ _
        | drop length =>
            rw [narrow_drop, List.drop_drop]
            exact ih _ _
        | fill length =>
            rw [narrow_fill]
            exact ih _ _
        | narrow width name =>
            have hfield : (⟨source, target, .narrow width name⟩
                : Placed).field? = some ⟨source, target, width, name⟩ := rfl
            rw [narrow_narrow, List.drop_drop, u32At_drop, placed,
              List.filterMap_cons_some hfield, List.filterMap_cons,
              ih (source + 4) (target + width.size)]
            unfold Field.overflow? Field.value
            split
            · rfl
            · rfl
  exact hbehind 0 0

-- ============================================================= narrowing

theorem sourceSize_append (front back : RecordLayout) :
    sourceSize (front ++ back) = front.sourceSize + back.sourceSize := by
  induction front with
  | nil => exact (Nat.zero_add _).symm
  | cons part front ih =>
      show part.sourceSize + sourceSize (front ++ back) = _
      rw [ih, ← Nat.add_assoc]
      rfl

theorem targetSize_append (front back : RecordLayout) :
    targetSize (front ++ back) = front.targetSize + back.targetSize := by
  induction front with
  | nil => exact (Nat.zero_add _).symm
  | cons part front ih =>
      show part.targetSize + targetSize (front ++ back) = _
      rw [ih, ← Nat.add_assoc]
      rfl

/-- The front of a layout makes the front of a standard record. -/
theorem narrow_append (front back : RecordLayout) (record : Bytes) :
    (narrow (front ++ back) record).1
      = (front.narrow record).1
        ++ (back.narrow (record.drop front.sourceSize)).1 := by
  induction front generalizing record with
  | nil => rfl
  | cons part front ih =>
      rw [List.cons_append, sourceSize, ← List.drop_drop]
      cases part with
      | keep length =>
          rw [narrow_keep, narrow_keep, ih, List.append_assoc]
          rfl
      | drop length =>
          rw [narrow_drop, narrow_drop, ih]
          rfl
      | fill length =>
          rw [narrow_fill, narrow_fill, ih, List.append_assoc]
          rfl
      | narrow width name =>
          rw [narrow_narrow, narrow_narrow, ih, List.append_assoc]
          rfl

/-- What is found at the place of a part is what the layout makes from this
part on. -/
theorem drop_narrow {front back : RecordLayout} {record : Bytes}
    (hlong : sourceSize (front ++ back) ≤ record.length) :
    (narrow (front ++ back) record).1.drop front.targetSize
      = (back.narrow (record.drop front.sourceSize)).1 := by
  rw [sourceSize_append] at hlong
  rw [narrow_append, List.drop_left' (length_narrow front (by omega))]

/-- A field is found in its narrow form, which is made of its low bytes. -/
theorem slice_narrow_field {layout : RecordLayout} {record : Bytes}
    (hlong : layout.sourceSize ≤ record.length) {f : Field}
    (hf : f ∈ layout.fields) :
    (layout.narrow record).1.slice f.target f.width.size
      = Bytes.ofNat f.width.size (record.u32At f.source).toNat := by
  obtain ⟨front, back, rfl, hsource, htarget⟩ := exists_of_mem_fields hf
  unfold slice
  rw [htarget, hsource, drop_narrow hlong, narrow_narrow, u32At_drop,
    List.take_left' (length_ofNat _ _)]

/-- A run of bytes that stay is found as it was. -/
theorem slice_narrow_run {layout : RecordLayout} {record : Bytes}
    (hlong : layout.sourceSize ≤ record.length) {r : Run}
    (hr : r ∈ layout.runs) :
    (layout.narrow record).1.slice r.target r.length
      = record.slice r.source r.length := by
  obtain ⟨front, back, rfl, hsource, htarget⟩ := exists_of_mem_runs hr
  have hend : sourceSize (.keep r.length :: back)
      ≤ (record.drop front.sourceSize).length := by
    rw [sourceSize_append] at hlong
    rw [List.length_drop]
    omega
  unfold slice
  rw [htarget, hsource, drop_narrow hlong, narrow_keep]
  exact List.take_left' (length_take_part hend)

-- ============================================================== widening

/-- A record that was widened has the size of those that are read. -/
theorem length_widen (layout : RecordLayout) {record : Bytes}
    (hlong : layout.targetSize ≤ record.length) :
    (layout.widen record).length = layout.sourceSize := by
  induction layout generalizing record with
  | nil => rfl
  | cons part rest ih =>
      have hrest : targetSize rest
          ≤ (record.drop part.targetSize).length := by
        rw [List.length_drop]
        unfold targetSize at hlong
        omega
      cases part with
      | keep length =>
          have htake : (record.take length).length = length := by
            rw [List.length_take]
            exact Nat.min_eq_left (Nat.le_trans (Nat.le_add_right _ _) hlong)
          rw [widen, List.length_append, htake]
          exact congrArg (length + ·) (ih hrest)
      | drop length =>
          rw [widen, List.length_append, length_zeros]
          exact congrArg (length + ·) (ih hrest)
      | fill length =>
          rw [widen]
          exact (ih hrest).trans (Nat.zero_add _).symm
      | narrow width name =>
          rw [widen, List.length_append, length_ofUInt32]
          exact congrArg (4 + ·) (ih hrest)

/-- The front of a layout widens to the front of a vendor record. -/
theorem widen_append (front back : RecordLayout) (record : Bytes) :
    widen (front ++ back) record
      = front.widen record ++ back.widen (record.drop front.targetSize) := by
  induction front generalizing record with
  | nil => rfl
  | cons part front ih =>
      rw [List.cons_append, targetSize, ← List.drop_drop]
      cases part with
      | keep length =>
          rw [widen, widen, ih, List.append_assoc]
          rfl
      | drop length =>
          rw [widen, widen, ih, List.append_assoc]
          rfl
      | fill length =>
          rw [widen, widen, ih]
          rfl
      | narrow width name =>
          rw [widen, widen, ih, List.append_assoc]
          rfl

/-- Behind the first parts, widening a record is widening its rest. -/
theorem drop_widen {front back : RecordLayout} {record : Bytes}
    (hlong : targetSize (front ++ back) ≤ record.length) :
    (widen (front ++ back) record).drop front.sourceSize
      = back.widen (record.drop front.targetSize) := by
  rw [targetSize_append] at hlong
  rw [widen_append, List.drop_left' (length_widen front (by omega))]

/-- A field is widened by itself, to where it came from. -/
theorem u32At_widen_field {layout : RecordLayout} {record : Bytes}
    (hlong : layout.targetSize ≤ record.length) {f : Field}
    (hf : f ∈ layout.fields) :
    (layout.widen record).u32At f.source
      = f.width.widen (record.drop f.target) := by
  obtain ⟨front, back, rfl, hsource, htarget⟩ := exists_of_mem_fields hf
  rw [htarget, hsource, ← u32At_drop, drop_widen hlong, widen, u32At_head]

/-- A run of bytes that stay goes back to where it came from. -/
theorem slice_widen_run {layout : RecordLayout} {record : Bytes}
    (hlong : layout.targetSize ≤ record.length) {r : Run}
    (hr : r ∈ layout.runs) :
    (layout.widen record).slice r.source r.length
      = record.slice r.target r.length := by
  obtain ⟨front, back, rfl, hsource, htarget⟩ := exists_of_mem_runs hr
  have htake : ((record.drop front.targetSize).take r.length).length
      = r.length := by
    have hpart : targetSize (.keep r.length :: back)
        = r.length + back.targetSize := rfl
    rw [targetSize_append, hpart] at hlong
    rw [List.length_take, List.length_drop]
    omega
  unfold slice
  rw [htarget, hsource, drop_widen hlong, widen]
  exact List.take_left' htake

end GameArchive.Map.RecordLayout
