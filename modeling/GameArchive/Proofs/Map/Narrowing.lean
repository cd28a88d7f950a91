/-
What narrowing a lump of records loses.

Records are narrowed one after the other and by themselves, so what is true
of one is true of each: the record at an index of the output is made of the
record at that index of the input, and the reports that name this index are
those of this record. Bytes behind the last whole record are reported and
dropped.

Main statement: `narrowLump_narrowed`.
-/
import GameArchive.Proofs.Map.Placement
import GameArchive.Proofs.Reported

namespace GameArchive.Map.RecordLayout

open Bytes

-- ============================================================== records

/-- The record of data at an index. -/
def recordAt (layout : RecordLayout) (data : Bytes) (k : Nat) : Bytes :=
  data.slice (k * layout.sourceSize) layout.sourceSize

/-- Things that were made by their numbers have these numbers. -/
theorem zipIdx_map_range {α : Type} (g : Nat → α) (count : Nat) :
    ((List.range count).map g).zipIdx
      = (List.range count).map fun k => (g k, k) := by
  refine List.ext_getElem ?_ ?_
  · simp
  · intro k _ _
    simp

/-- Records are narrowed one by one, and reported one by one. -/
theorem narrowAll_eq (layout : RecordLayout) (place : Place) (count : Nat)
    (data : Bytes) :
    layout.narrowAll place count data
      = ((List.range count).flatMap fun k =>
            (layout.narrow (layout.recordAt data k)).1,
          (List.range count).flatMap fun k =>
            overflowWarnings place k
              (layout.narrow (layout.recordAt data k)).2) := by
  unfold narrowAll
  simp only [pieces_eq_map, List.map_map, zipIdx_map_range, List.flatMap_def]
  rfl

/-- Which records a row of records reports, and what of them. -/
theorem overflow_mem_iff {place : Place} {count k : Nat}
    {overflows : Nat → List Overflow} {field : String} {value : Int} :
    Warning.overflow place k field value
        ∈ (List.range count).flatMap
          (fun i => overflowWarnings place i (overflows i))
      ↔ k < count ∧ ⟨field, value⟩ ∈ overflows k := by
  rw [List.mem_flatMap]
  constructor
  · rintro ⟨i, hi, hwarning⟩
    obtain ⟨o, ho, heq⟩ := List.mem_map.mp hwarning
    cases heq
    exact ⟨List.mem_range.mp hi, ho⟩
  · rintro ⟨hk, ho⟩
    exact ⟨k, List.mem_range.mpr hk, List.mem_map.mpr ⟨_, ho, rfl⟩⟩

/-- A lump of records is narrowed record by record: the warnings come in this
order, and what is no whole record is left out. -/
theorem narrowLump_eq (layout : RecordLayout) (lump : Nat) (data : Bytes) :
    layout.narrowLump lump data
      = ⟨(if data.length % layout.sourceSize = 0 then []
            else [.trailingBytes lump data.length layout.sourceSize])
          ++ (List.range (data.length / layout.sourceSize)).flatMap fun k =>
            overflowWarnings (.lump lump) k
              (layout.narrow (layout.recordAt data k)).2,
        .ok ((List.range (data.length / layout.sourceSize)).flatMap fun k =>
          (layout.narrow (layout.recordAt data k)).1)⟩ := by
  unfold narrowLump
  dsimp only
  rw [narrowAll_eq]
  dsimp only
  rw [Reported.warn_pure]
  by_cases hwhole : data.length % layout.sourceSize = 0
  · rw [if_pos hwhole, if_neg (fun h => h hwhole), List.nil_append]
  · rw [if_neg hwhole, if_pos hwhole, Reported.warn_bind]

-- =============================================================== a lump

/-- How long records are before and after, the runs of their bytes that are
left out, the runs that stay, and the fields that are narrowed. -/
structure Shape where
  source : Nat
  target : Nat
  gaps : List (Nat × Nat)
  runs : List Run
  fields : List Field
deriving DecidableEq

/-- The shape of the records that a layout narrows. -/
def shape (layout : RecordLayout) : Shape :=
  ⟨layout.sourceSize, layout.targetSize, layout.gaps 0, layout.runs,
    layout.fields⟩

/-- What narrowing a record comes to. A field is there in its narrow form and
a run as it was, both where the shape says; widened again, the field is what
its form stands for, and the run what it was. -/
structure NarrowedRecord (layout : RecordLayout) (shape : Shape)
    (record out : Bytes) : Prop where
  narrow : out = (layout.narrow record).1
  field : ∀ f ∈ shape.fields, out.slice f.target f.width.size
    = Bytes.ofNat f.width.size (record.u32At f.source).toNat
  run : ∀ r ∈ shape.runs,
    out.slice r.target r.length = record.slice r.source r.length
  field_widened : ∀ f ∈ shape.fields,
    (layout.widen out).u32At f.source = f.width.widen (out.drop f.target)
  run_widened : ∀ r ∈ shape.runs,
    (layout.widen out).slice r.source r.length = out.slice r.target r.length

/-- What narrowing a lump of records comes to: all whole records are there,
each made of the record at its index alone; the values that do not fit are
reported, record by record and field by field; and exactly the records of
which nothing is reported are widened again to what they were. -/
structure Narrowed (lump : Nat) (layout : RecordLayout) (shape : Shape)
    (data out : Bytes) (warnings : List Warning) : Prop where
  length : out.length = data.length / shape.source * shape.target
  record : ∀ k, k < data.length / shape.source →
    NarrowedRecord layout shape
      (data.slice (k * shape.source) shape.source)
      (out.slice (k * shape.target) shape.target)
  reported : warnings
    = (if data.length % shape.source = 0 then []
        else [.trailingBytes lump data.length shape.source])
      ++ (List.range (data.length / shape.source)).flatMap fun k =>
        (shape.fields.filterMap
            (·.overflow? (data.slice (k * shape.source) shape.source))).map
          fun o => .overflow (.lump lump) k o.field o.value
  lossless : ∀ k, k < data.length / shape.source →
    ((∀ i, i < shape.source → Kept shape.gaps i →
        (layout.widen (out.slice (k * shape.target) shape.target))[i]?
          = data[k * shape.source + i]?)
      ↔ ∀ field value, .overflow (.lump lump) k field value ∉ warnings)

/-- A record that is long enough is narrowed as the shape of its layout
says. -/
theorem narrowedRecord {layout : RecordLayout} {record : Bytes}
    (hlong : layout.sourceSize ≤ record.length) :
    NarrowedRecord layout layout.shape record (layout.narrow record).1 := by
  have hout := Nat.le_of_eq (length_narrow layout hlong).symm
  exact {
    narrow := rfl
    field := fun f hf => slice_narrow_field hlong hf
    run := fun r hr => slice_narrow_run hlong hr
    field_widened := fun f hf => u32At_widen_field hout hf
    run_widened := fun r hr => slice_widen_run hout hr }

/-- Each of the counted records is whole. -/
theorem length_recordAt {layout : RecordLayout} {data : Bytes} {k : Nat}
    (hk : k < data.length / layout.sourceSize) :
    (layout.recordAt data k).length = layout.sourceSize := by
  have hend : (k + 1) * layout.sourceSize ≤ data.length :=
    Nat.le_trans (Nat.mul_le_mul_right _ hk) (Nat.div_mul_le_self _ _)
  rw [Nat.succ_mul] at hend
  unfold recordAt
  rw [length_slice]
  omega

/-- A byte of a record is one of the lump. -/
theorem getElem?_recordAt {layout : RecordLayout} (data : Bytes) (k : Nat)
    {i : Nat} (hi : i < layout.sourceSize) :
    (layout.recordAt data k)[i]? = data[k * layout.sourceSize + i]? := by
  unfold recordAt slice
  rw [List.getElem?_take_of_lt hi, List.getElem?_drop]

/-- To agree with a record is to have its bytes, but for those that the layout
leaves out. -/
theorem agree_recordAt_iff {layout : RecordLayout} (record data : Bytes)
    (k : Nat) :
    (∀ i, i < layout.sourceSize → Kept (layout.gaps 0) i →
        record[i]? = data[k * layout.sourceSize + i]?)
      ↔ Agree 0 layout record (layout.recordAt data k) := by
  constructor
  · intro h i hi hkept
    rw [Nat.zero_add] at hkept
    rw [getElem?_recordAt data k hi]
    exact h i hi hkept
  · intro h i hi hkept
    rw [← getElem?_recordAt data k hi]
    rw [← Nat.zero_add i] at hkept
    exact h i hi hkept

/-- Nothing of a record is reported exactly if all its fields fit. -/
theorem not_reported_iff {place : Place} {count k : Nat}
    (overflows : Nat → List Overflow) {others : List Warning}
    (hothers : ∀ field value, .overflow place k field value ∉ others)
    (hk : k < count) :
    overflows k = []
      ↔ ∀ field value, Warning.overflow place k field value
        ∉ others ++ (List.range count).flatMap
          (fun i => overflowWarnings place i (overflows i)) := by
  constructor
  · intro hnone field value hwarning
    rcases List.mem_append.mp hwarning with hother | hrecord
    · exact hothers field value hother
    · have ho := (overflow_mem_iff.mp hrecord).2
      rw [hnone] at ho
      cases ho
  · intro h
    refine List.eq_nil_iff_forall_not_mem.mpr fun o ho => ?_
    exact h o.field o.value
      (List.mem_append_right _ (overflow_mem_iff.mpr ⟨hk, ho⟩))

/-- Narrowing a lump never fails, whatever its layout. -/
theorem narrowLump_narrowed (layout : RecordLayout) (lump : Nat)
    (data : Bytes) :
    ∃ out, (layout.narrowLump lump data).outcome = .ok out
      ∧ Narrowed lump layout layout.shape data out
        (layout.narrowLump lump data).warnings := by
  rw [narrowLump_eq]
  have htarget : ∀ k, k < data.length / layout.sourceSize →
      (layout.narrow (layout.recordAt data k)).1.length
        = layout.targetSize := fun k hk =>
    length_narrow layout (Nat.le_of_eq (length_recordAt hk).symm)
  refine ⟨_, rfl, length_flatMap_range htarget,
    fun k hk => ?_, ?_, ?_⟩
  · unfold shape
    dsimp only
    rw [slice_flatMap_range htarget hk]
    exact narrowedRecord (Nat.le_of_eq (length_recordAt hk).symm)
  · simp only [overflows_eq]
    rfl
  · intro k hk
    -- Undone, a narrowed record is the record exactly if all its fields did
    -- fit.
    have hagree : Agree 0 layout
        (layout.widen (layout.narrow (layout.recordAt data k)).1)
        (layout.recordAt data k)
          ↔ (layout.narrow (layout.recordAt data k)).2 = [] :=
      agree_widen_narrow_iff layout (Nat.le_of_eq (length_recordAt hk).symm)
    unfold shape
    dsimp only
    rw [slice_flatMap_range htarget hk]
    refine (agree_recordAt_iff _ data k).trans (hagree.trans ?_)
    refine not_reported_iff
      (fun i => (layout.narrow (layout.recordAt data i)).2)
      (fun field value hwarning => ?_) hk
    split at hwarning
    · cases hwarning
    · cases List.mem_singleton.mp hwarning

end GameArchive.Map.RecordLayout
