/-
Walks over counted sections.

Nothing says where the sections of a game lump are: each begins where the
one before it ends, and ends where its count and the size of its records
put the end. A `Walk` follows them and does nothing else. Reading the
counts and writing the records, two loops that fail in different places,
succeed together exactly where a walk over the vendor's records stays
inside the lump; and what they write is walked with the standard sizes,
stop by stop beside the source.

Both are by induction over the sections, with whatever lies before and
behind them left open.
-/
import GameArchive.Map.GameLump
import GameArchive.Proofs.Map.Narrowing

namespace GameArchive.Map

open Bytes

-- ================================================================ walks

/-- A section that a walk comes to: where its count is, and how many
records follow, which are none for a count below zero. -/
structure Stop where
  place : Nat
  records : Nat
deriving DecidableEq, Repr

/-- The record of a section at an index. -/
def Stop.record (data : Bytes) (s : Stop) (size k : Nat) : Bytes :=
  data.slice (s.place + 4 + k * size) size

/-- A walk over sections with records of given sizes, which begins at a
place, makes these stops, stays inside the data and ends at `finish`. -/
inductive Walk (data : Bytes) :
    (sizes : List Nat) → (place : Nat) → List Stop → (finish : Nat) → Prop
  | done (place : Nat) : Walk data [] place [] place
  | next {size place finish : Nat} {sizes : List Nat} {stops : List Stop}
      (hinside : place + 4 + (data.i32At place).toNat * size ≤ data.length)
      (hrest : Walk data sizes
        (place + 4 + (data.i32At place).toNat * size) stops finish) :
      Walk data (size :: sizes) place
        (⟨place, (data.i32At place).toNat⟩ :: stops) finish

namespace CountedSection

variable {data : Bytes}

-- ============================================================== reading

/-- Whether the records of a section lie inside the data. -/
def Fits (data : Bytes) (s : CountedSection) : Prop :=
  s.offset + 4 + s.records * s.format.layout.sourceSize ≤ data.length

/-- Where a walk over the source stops for a section. -/
def stop (s : CountedSection) : Stop := ⟨s.offset, s.records⟩

/-- Where there is room for a count, a section is found, with a warning if the
count is negative. -/
theorem read_eq {format : SectionFormat} {offset : Nat}
    (h : offset + 4 ≤ data.length) :
    read data format offset
      = ⟨if data.i32At offset < 0
            then [.negativeCount format.part (data.i32At offset)] else [],
          .ok ⟨format, offset, data.i32At offset⟩⟩ := by
  unfold read
  rw [if_neg (Nat.not_lt.mpr h)]
  dsimp only
  split
  · rw [Reported.warn_pure]
  · rfl

/-- A section is found exactly if there is room for its count. -/
theorem read_ok_iff {format : SectionFormat} {offset : Nat}
    {s : CountedSection} :
    (read data format offset).outcome = .ok s
      ↔ offset + 4 ≤ data.length ∧ s = ⟨format, offset, data.i32At offset⟩ := by
  by_cases h : offset + 4 ≤ data.length
  · rw [read_eq h]
    constructor
    · intro heq
      cases heq
      exact ⟨h, rfl⟩
    · rintro ⟨-, rfl⟩
      rfl
  · unfold read
    rw [if_pos (Nat.lt_of_not_le h)]
    constructor
    · intro heq
      cases heq
    · intro hs
      exact absurd hs.1 h

/-- The counts that are read are those at the places of the sections. -/
theorem readChain_ok {formats : List SectionFormat} :
    ∀ {offset : Nat} {sections : List CountedSection},
      (readChain data formats offset).outcome = .ok sections →
      sections.map (·.format) = formats
      ∧ (∀ s ∈ sections, s.count = data.i32At s.offset)
      ∧ ((∀ s ∈ sections, s.Fits data) →
          ∃ finish, Walk data (formats.map (·.layout.sourceSize)) offset
            (sections.map stop) finish) := by
  induction formats with
  | nil =>
      intro offset sections h
      cases h
      exact ⟨rfl, fun s hs => (by cases hs), fun _ => ⟨_, .done offset⟩⟩
  | cons format rest ih =>
      intro offset sections h
      obtain ⟨s, hs, h⟩ := Reported.bind_ok h
      obtain ⟨tail, htail, h⟩ := Reported.bind_ok h
      cases h
      obtain ⟨-, rfl⟩ := read_ok_iff.mp hs
      obtain ⟨hformats, hcounts, hwalk⟩ := ih htail
      refine ⟨congrArg (format :: ·) hformats, ?_, ?_⟩
      · intro s hs
        rcases List.mem_cons.mp hs with rfl | hs
        · rfl
        · exact hcounts s hs
      · intro hfits
        obtain ⟨finish, hrest⟩ := hwalk fun s hs =>
          hfits s (List.mem_cons_of_mem _ hs)
        refine ⟨finish, .next (hfits _ List.mem_cons_self) ?_⟩
        rw [Nat.add_assoc]
        exact hrest

/-- Where a walk stays inside the data, the counts can be read, and the
records are there. -/
theorem readChain_of_walk {formats : List SectionFormat} :
    ∀ {offset finish : Nat} {stops : List Stop},
      Walk data (formats.map (·.layout.sourceSize)) offset stops finish →
      ∃ sections, (readChain data formats offset).outcome = .ok sections
        ∧ ∀ s ∈ sections, s.Fits data := by
  induction formats with
  | nil => exact fun _ => ⟨[], rfl, fun s hs => by cases hs⟩
  | cons format rest ih =>
      intro offset finish stops hwalk
      cases hwalk with
      | next hinside hrest =>
          obtain ⟨tail, htail, hfits⟩ := ih hrest
          refine ⟨⟨format, offset, data.i32At offset⟩ :: tail, ?_, ?_⟩
          · refine Reported.bind_ok_iff.mpr ⟨_, read_ok_iff.mpr
              ⟨by omega, rfl⟩, Reported.bind_ok_iff.mpr ⟨tail, ?_, rfl⟩⟩
            rw [Nat.add_assoc] at htail
            exact htail
          · intro s hs
            rcases List.mem_cons.mp hs with rfl | hs
            · exact hinside
            · exact hfits s hs

-- ============================================================== writing

/-- The count that is written for a section. -/
def storedCount (s : CountedSection) : Int :=
  if s.format.keepsCount then s.count else s.records

/-- What a section becomes. -/
def target (data : Bytes) (s : CountedSection) : Bytes :=
  Bytes.ofNat 4 (s.storedCount % 0x100000000).toNat
    ++ (List.range s.records).flatMap fun k =>
      (s.format.layout.narrow
        (s.stop.record data s.format.layout.sourceSize k)).1

/-- A section that lies inside the data is narrowed record by record. -/
theorem write_eq {s : CountedSection} (h : s.Fits data) :
    s.write data
      = ⟨(List.range s.records).flatMap fun k =>
            RecordLayout.overflowWarnings (.gameSection s.format.part) k
              (s.format.layout.narrow
                (s.stop.record data s.format.layout.sourceSize k)).2,
          .ok (s.target data)⟩ := by
  have hrecord : ∀ k, RecordLayout.recordAt s.format.layout
      (data.drop (s.offset + 4)) k
        = s.stop.record data s.format.layout.sourceSize k := fun k =>
    slice_drop data _ _ _
  unfold write
  dsimp only
  rw [if_neg (Nat.not_lt.mpr h), RecordLayout.narrowAll_eq]
  simp only [hrecord]
  rw [Reported.warn_pure]
  rfl

/-- A section is written exactly if it lies inside the data. -/
theorem write_ok_iff {s : CountedSection} {out : Bytes} :
    (s.write data).outcome = .ok out
      ↔ s.Fits data ∧ out = s.target data := by
  by_cases h : s.Fits data
  · rw [write_eq h]
    constructor
    · intro heq
      cases heq
      exact ⟨h, rfl⟩
    · rintro ⟨-, rfl⟩
      rfl
  · unfold write
    dsimp only
    rw [if_pos (Nat.lt_of_not_le h)]
    constructor
    · intro heq
      cases heq
    · intro hs
      exact absurd hs.1 h

/-- Sections are written exactly if all of them lie inside. -/
theorem writeChain_ok_iff {sections : List CountedSection} :
    ∀ {out : Bytes}, (writeChain data sections).outcome = .ok out
      ↔ (∀ s ∈ sections, s.Fits data)
        ∧ out = sections.flatMap (target data) := by
  induction sections with
  | nil =>
      intro out
      constructor
      · intro h
        cases h
        exact ⟨fun s hs => (by cases hs), rfl⟩
      · rintro ⟨-, rfl⟩
        rfl
  | cons s rest ih =>
      intro out
      constructor
      · intro h
        obtain ⟨head, hhead, h⟩ := Reported.bind_ok h
        obtain ⟨tail, htail, h⟩ := Reported.bind_ok h
        cases h
        obtain ⟨hfits, rfl⟩ := write_ok_iff.mp hhead
        obtain ⟨hrest, rfl⟩ := ih.mp htail
        refine ⟨fun s' hs' => ?_, rfl⟩
        rcases List.mem_cons.mp hs' with rfl | hs'
        · exact hfits
        · exact hrest s' hs'
      · rintro ⟨hfits, rfl⟩
        exact Reported.bind_ok_iff.mpr ⟨_,
          write_ok_iff.mpr ⟨hfits s List.mem_cons_self, rfl⟩,
          Reported.bind_ok_iff.mpr ⟨_,
            ih.mpr ⟨fun s' hs' => hfits s' (List.mem_cons_of_mem _ hs'), rfl⟩,
            rfl⟩⟩

-- ========================================================= walking again

variable {s : CountedSection}

/-- Each record of such a section is whole. -/
theorem length_record (h : s.Fits data) {k : Nat} (hk : k < s.records) :
    (s.stop.record data s.format.layout.sourceSize k).length
      = s.format.layout.sourceSize := by
  have hend := Nat.mul_le_mul_right s.format.layout.sourceSize hk
  rw [Nat.succ_mul] at hend
  unfold Fits at h
  unfold Stop.record stop
  rw [length_slice]
  dsimp only
  omega

/-- Narrowed, it has the standard size. -/
theorem length_narrow_record (h : s.Fits data) {k : Nat}
    (hk : k < s.records) :
    (s.format.layout.narrow
        (s.stop.record data s.format.layout.sourceSize k)).1.length
      = s.format.layout.targetSize :=
  RecordLayout.length_narrow _ (Nat.le_of_eq (length_record h hk).symm)

/-- A section takes the space that was counted for it. -/
theorem length_target (h : s.Fits data) :
    (s.target data).length = s.targetLength := by
  unfold target targetLength
  rw [List.length_append, length_ofNat,
    length_flatMap_range fun k hk => length_narrow_record h hk]

/-- A written count holds the records that were read. -/
theorem i32At_target (hcount : s.count = data.i32At s.offset)
    (rest : Bytes) :
    ((s.target data ++ rest).i32At 0).toNat = s.records := by
  have hbounds := i32At_bounds data s.offset
  have hstored : -0x80000000 ≤ s.storedCount
      ∧ s.storedCount < 0x80000000
      ∧ s.storedCount.toNat = s.records := by
    unfold storedCount records
    split
    all_goals omega
  unfold target
  rw [List.append_assoc, i32At_ofNat hstored.1 hstored.2.1]
  exact hstored.2.2

/-- Where a walk stops in sections that are written from a place on. -/
def targetStops : (place : Nat) → List CountedSection → List Stop
  | _, [] => []
  | place, s :: rest =>
    ⟨place, s.records⟩ :: targetStops (place + s.targetLength) rest

/-- What is written is walked with the standard sizes, to its end. -/
theorem walk_written {sections : List CountedSection}
    (hcounts : ∀ s ∈ sections, s.count = data.i32At s.offset)
    (hfits : ∀ s ∈ sections, s.Fits data) :
    ∀ (before after : Bytes),
      Walk (before ++ (sections.flatMap (target data) ++ after))
        (sections.map (·.format.layout.targetSize)) before.length
        (targetStops before.length sections)
        (before.length + totalLength sections) := by
  induction sections with
  | nil => exact fun before _ => .done before.length
  | cons s rest ih =>
      intro before after
      have hlength := length_target (hfits s List.mem_cons_self)
      -- The count that the walk finds is the count that was written.
      have hcount : ((before ++ (s.target data
          ++ (rest.flatMap (target data) ++ after))).i32At
            before.length).toNat = s.records := by
        rw [← i32At_target (hcounts s List.mem_cons_self)
          (rest.flatMap (target data) ++ after)]
        exact congrArg Int.toNat (i32At_behind rfl _ 0)
      have hrest := ih (fun s' hs' => hcounts s' (List.mem_cons_of_mem _ hs'))
        (fun s' hs' => hfits s' (List.mem_cons_of_mem _ hs'))
        (before ++ s.target data) after
      rw [List.append_assoc, List.length_append, hlength] at hrest
      rw [List.flatMap_cons, List.append_assoc]
      unfold targetStops totalLength
      rw [List.map_cons, ← hcount, ← Nat.add_assoc]
      refine .next ?_ ?_
      · rw [hcount]
        simp only [List.length_append, hlength]
        unfold targetLength
        omega
      · rw [hcount, Nat.add_assoc before.length]
        exact hrest

/-- A section is written behind those before it. -/
theorem targetStops_getElem? {sections : List CountedSection} :
    ∀ {place i : Nat}, sections[i]? = some s →
      (targetStops place sections)[i]?
        = some ⟨place + totalLength (sections.take i), s.records⟩ := by
  induction sections with
  | nil => intro place i hi; cases hi
  | cons first rest ih =>
      intro place i hi
      cases i with
      | zero =>
          cases hi
          rfl
      | succ i =>
          rw [List.take_succ_cons, totalLength, ← Nat.add_assoc]
          exact ih hi

/-- As many records are written as were read. -/
theorem records_targetStops (sections : List CountedSection) :
    ∀ place, (targetStops place sections).map (·.records)
      = (sections.map stop).map (·.records) := by
  induction sections with
  | nil => exact fun _ => rfl
  | cons s rest ih => exact fun _ => congrArg (s.records :: ·) (ih _)

-- What comes before a section is no longer than all sections together.
theorem totalLength_take_le (sections : List CountedSection) :
    ∀ i, totalLength (sections.take i) ≤ totalLength sections := by
  induction sections with
  | nil =>
      exact fun i => Nat.le_of_eq (congrArg totalLength List.take_nil)
  | cons s rest ih =>
      intro i
      cases i with
      | zero => exact Nat.zero_le _
      | succ i => exact Nat.add_le_add_left (ih i) _

/-- Together, the sections take the space that was counted for them. -/
theorem length_written {sections : List CountedSection}
    (hfits : ∀ s ∈ sections, s.Fits data) :
    (sections.flatMap (target data)).length = totalLength sections := by
  induction sections with
  | nil => rfl
  | cons s rest ih =>
      rw [List.flatMap_cons, List.length_append,
        length_target (hfits s List.mem_cons_self),
        ih fun s hs => hfits s (List.mem_cons_of_mem _ hs)]
      rfl

/-- Each record that is written is made of the record at the same index of
the same section alone. -/
theorem record_written {sections : List CountedSection}
    (hfits : ∀ s ∈ sections, s.Fits data) :
    ∀ (before after : Bytes) {i k : Nat}, sections[i]? = some s →
      k < s.records →
      Stop.record (before ++ (sections.flatMap (target data) ++ after))
          ⟨before.length + totalLength (sections.take i), s.records⟩
          s.format.layout.targetSize k
        = (s.format.layout.narrow
            (s.stop.record data s.format.layout.sourceSize k)).1 := by
  induction sections with
  | nil => intro before after i k hi; cases hi
  | cons first rest ih =>
      intro before after i k hi hk
      rw [List.flatMap_cons, List.append_assoc]
      -- In the first section, or behind it among those that follow.
      cases i with
      | zero =>
          cases hi
          have hfit := hfits s List.mem_cons_self
          have hlength := length_flatMap_range fun k hk =>
            length_narrow_record hfit hk
          have hend := Nat.mul_le_mul_right s.format.layout.targetSize hk
          rw [Nat.succ_mul] at hend
          show slice _ (before.length + 0 + 4
            + k * s.format.layout.targetSize) _ = _
          rw [Nat.add_zero, Nat.add_assoc, slice_behind rfl]
          unfold target
          rw [List.append_assoc, slice_behind (length_ofNat 4 _),
            slice_left _ (by rw [hlength]; exact hend)]
          exact slice_flatMap_range (fun k hk => length_narrow_record hfit hk)
            hk
      | succ i =>
          have hlength := length_target (hfits first List.mem_cons_self)
          have hrest := ih (fun s hs => hfits s (List.mem_cons_of_mem _ hs))
            (before ++ first.target data) after hi hk
          rw [List.append_assoc, List.length_append, hlength,
            Nat.add_assoc] at hrest
          exact hrest

end CountedSection
end GameArchive.Map
