/-
What becomes of the entries of a game lump's directory.

An entry gives an offset in the file and a length. Rewriting makes the
offset anew and leaves the length, so the two are no longer about the same
bytes: the sections behind the offset have become shorter where leaves,
props or detail objects are narrowed, and the length is that of the source.
All that is not static props or detail objects is moved with the lump. The
distance is counted from where the decoded lump would lie if each lump
followed the one before it, which is where it lies in the file only if
nothing in front of it is compressed, padded or out of order.

Main statements: `gameLump_lengths`, `gameLump_rebased`.
-/
import GameArchive.Proofs.Map.GameLump.PropFormats

namespace GameArchive.Map

open Bytes

-- ============================================================== extents

/-- The bytes of sections that follow each other, from the sizes of their
records and from their counts. -/
def extent : (sizes counts : List Nat) → Nat
  | size :: sizes, count :: counts => 4 + count * size + extent sizes counts
  | _, _ => 0

@[simp] theorem extent_nil : extent [] [] = 0 := rfl

@[simp] theorem extent_cons (size count : Nat) (sizes counts : List Nat) :
    extent (size :: sizes) (count :: counts)
      = 4 + count * size + extent sizes counts := rfl

/-- A walk ends behind the extent of its sections. -/
theorem Walk.finish_eq {data : Bytes} {sizes : List Nat}
    {place finish : Nat} {stops : List Stop}
    (h : Walk data sizes place stops finish) :
    finish = place + extent sizes (stops.map (·.records)) := by
  induction h with
  | done place => rfl
  | next _ _ ih =>
      rw [ih, List.map_cons, extent_cons, ← Nat.add_assoc,
        ← Nat.add_assoc]

/-- The counts that a walk reads. -/
def countsAlong (data : Bytes) : (sizes : List Nat) → (place : Nat) → List Nat
  | [], _ => []
  | size :: sizes, place =>
    let count := (data.i32At place).toNat
    count :: countsAlong data sizes (place + 4 + count * size)

/-- The records that a walk finds are those that are counted along it. -/
theorem Walk.records_eq {data : Bytes} {sizes : List Nat}
    {place finish : Nat} {stops : List Stop}
    (h : Walk data sizes place stops finish) :
    stops.map (·.records) = countsAlong data sizes place := by
  induction h with
  | done place => rfl
  | next _ _ ih =>
      rw [List.map_cons, ih]
      rfl

namespace CountedSection

/-- The sections as written take up what their counts and sizes say. -/
theorem totalLength_eq_extent (sections : List CountedSection) :
    totalLength sections
      = extent (sections.map (·.format.layout.targetSize))
          (sections.map (·.records)) := by
  induction sections with
  | nil => rfl
  | cons s rest ih =>
      rw [totalLength, ih, List.map_cons, List.map_cons, extent_cons]
      rfl

end CountedSection

-- ========================================================== side by side

/-- A rewritten game lump beside its source. Both have a directory, and
behind it six sections with the same counts; the walk over the rewritten one
ends where it ends. -/
structure Beside (data lump : Bytes) (old new : List GameEntry)
    (counts : List Nat) : Prop where
  oldDirectory : HasDirectory data old
  newDirectory : HasDirectory lump new
  walked : ∃ stops finish,
    Walk data (vendorSizes old) (4 + 16 * old.length) stops finish
      ∧ stops.map (·.records) = counts
  rewalked : ∃ stops,
    Walk lump standardSizes (4 + 16 * new.length) stops lump.length
      ∧ stops.map (·.records) = counts
  six : counts.length = 6

/-- The counts beside a directory are those in the lump. -/
theorem Beside.counts_eq {data lump : Bytes} {old new : List GameEntry}
    {counts : List Nat} (h : Beside data lump old new counts) :
    counts = countsAlong data (vendorSizes old) (4 + 16 * old.length) := by
  obtain ⟨stops, finish, hwalk, rfl⟩ := h.walked
  exact hwalk.records_eq

/-- The directory of a game lump with these counts, for its new place. -/
def rebased (oldBase newBase : Nat) (counts : List Nat)
    (old : List GameEntry) : List GameEntry :=
  old.map (GameEntry.moved oldBase newBase (4 + 16 * old.length)
    (4 + 16 * old.length
      + extent (standardSizes.take 3) (counts.take 3)))

/-- What is said of entries by counts alone is what the sections give. -/
theorem rebased_eq_movedDirectory {version : UInt16}
    {sections : List CountedSection}
    (hformats : sections.map (·.format) = sectionFormats version)
    (oldBase newBase : Nat) (old : List GameEntry) :
    rebased oldBase newBase (sections.map (·.records)) old
      = movedDirectory oldBase newBase old sections := by
  unfold rebased movedDirectory
  rw [CountedSection.totalLength_eq_extent, List.map_take, List.map_take,
    targetSizes_of_formats hformats]

/-- A game lump that is transcoded has a directory and counts, and a new
directory beside them. -/
theorem exists_beside {oldBase newBase : Nat} {data lump : Bytes}
    (hdata : data ≠ [])
    (hlump : (transcodeGameLump oldBase newBase data).outcome = .ok lump) :
    ∃ old counts,
      Beside data lump old (rebased oldBase newBase counts old) counts := by
  obtain ⟨old, sections, hold, hsections, hfits, rfl⟩ :=
    (transcodeGameLump_ok_iff oldBase newBase hdata).mp hlump
  obtain ⟨hformats, hcounts, hwalk⟩ :=
    CountedSection.readChain_ok hsections
  obtain ⟨finish, hwalk⟩ := hwalk hfits
  have hmoved := rebased_eq_movedDirectory hformats oldBase newBase old
  refine ⟨old, sections.map (·.records), ?_⟩
  rw [hmoved]
  exact {
    oldDirectory := hold
    newDirectory := by
      refine hasDirectory_written ?_ _
      -- the count is a signed word in the source already
      have hbounds := i32At_bounds data 0
      rw [hold.counted] at hbounds
      rw [length_movedDirectory]
      omega
    walked := by
      rw [← sourceSizes]
      refine ⟨_, finish, hwalk, ?_⟩
      rw [List.map_map]
      rfl
    rewalked := by
      have hwritten := walk_writtenLump hformats hcounts hfits oldBase newBase
        old [] []
      rw [List.append_nil, List.nil_append, List.length_nil, Nat.zero_add,
        Nat.zero_add] at hwritten
      rw [length_movedDirectory]
      refine ⟨_, hwritten, ?_⟩
      rw [CountedSection.records_targetStops, List.map_map]
      rfl
    six := by
      have hlength := congrArg List.length hformats
      rw [List.length_map] at hlength
      rw [List.length_map, hlength]
      rfl }

/-- The game lump of a transcoded map stands beside the decoded one, with a
directory for the place that it has then. -/
theorem transcode_beside {file out : Bytes} (hfile : file ≠ [])
    (hout : (transcode true file).outcome = .ok out) :
    ∃ (source target : Header) (lumps : Vector Lump 64)
        (contents : Vector Bytes 64),
      Decodes file source lumps
      ∧ LaidOut out target contents
      ∧ ((lumps.get 35).data ≠ [] → ∃ old counts,
        Beside (lumps.get 35).data (contents.get 35) old
          (rebased (1036 + span (lumps.toList.take 35))
            (front target contents 35).length counts old) counts) := by
  obtain ⟨source, target, lumps, contents, hdecodes, hlaid, htreated⟩ :=
    transcode_decodes hfile hout
  refine ⟨source, target, lumps, contents, hdecodes, hlaid, fun hdata => ?_⟩
  exact exists_beside hdata (htreated 35 (by decide))

/-- The header places the game lump behind all that lies before it. -/
theorem LaidOut.gameLump_offset {out : Bytes} {header : Header}
    {contents : Vector Bytes 64} (h : LaidOut out header contents) :
    (header.lumps.get 35).offset
      = UInt32.ofNat (front header contents 35).length := by
  rw [h.length_front]
  exact (h.placed 35 (by decide)).1

-- ============================================================== lengths

/-- Among the sizes of the vendor, only that of a prop depends on the version;
it is always above the standard one. -/
theorem exists_vendorSize (old : List GameEntry) :
    ∃ size, vendorSizes old = [128, 4, size, 128, 32, 56] ∧ 64 < size := by
  refine ⟨_, rfl, ?_⟩
  split
  · decide
  · decide

theorem exists_sixCounts {counts : List Nat} (h : counts.length = 6) :
    ∃ names leaves props detailNames sprites details,
      counts = [names, leaves, props, detailNames, sprites, details] := by
  match counts, h with
  | [names, leaves, props, detailNames, sprites, details], _ =>
      exact ⟨names, leaves, props, detailNames, sprites, details, rfl⟩

-- What narrowing takes from three sections.

/-- The sections of the static props shrink by two bytes for each leaf, and by
what each prop has too much. -/
theorem extent_vendorProps {size : Nat} (h : 64 < size)
    (names leaves props : Nat) :
    extent [128, 4, size] [names, leaves, props]
      = extent [128, 2, 64] [names, leaves, props]
        + 2 * leaves + (size - 64) * props := by
  have hprops : props * size = props * 64 + (size - 64) * props := by
    rw [Nat.mul_comm (size - 64), ← Nat.mul_add,
      Nat.add_sub_cancel' (Nat.le_of_lt h)]
  simp only [extent_cons, extent_nil]
  omega

/-- The sections of the detail props shrink by four bytes for each of them. -/
theorem extent_vendorDetails (names sprites details : Nat) :
    extent [128, 32, 56] [names, sprites, details]
      = extent [128, 32, 52] [names, sprites, details] + 4 * details := by
  simp only [extent_cons, extent_nil]
  omega

/-- The standard sections are three and three. -/
theorem extent_standardSizes
    (names leaves props detailNames sprites details : Nat) :
    extent standardSizes
        [names, leaves, props, detailNames, sprites, details]
      = extent [128, 2, 64] [names, leaves, props]
        + extent [128, 32, 52] [detailNames, sprites, details] := by
  simp only [standardSizes, extent_cons, extent_nil]
  omega

/-- An entry whose length was that of its three sections keeps that length,
at the place of the sections that are written. For static props it is too
long by 2 bytes for each leaf and by at least 8 for each prop, and so right
exactly if there are none; for detail objects it is too long by 4 bytes for
each, and reaches as far behind the end of the lump. -/
theorem gameLump_lengths {file out : Bytes} (hfile : file ≠ [])
    (hout : (transcode true file).outcome = .ok out) :
    ∃ (source target : Header) (lumps : Vector Lump 64)
        (contents : Vector Bytes 64),
      Decodes file source lumps
      ∧ LaidOut out target contents
      ∧ ((lumps.get 35).data ≠ [] →
        ∃ (old new : List GameEntry)
            (size names leaves props detailNames sprites details : Nat),
          Beside (lumps.get 35).data (contents.get 35) old new
            [names, leaves, props, detailNames, sprites, details]
          ∧ vendorSizes old = [128, 4, size, 128, 32, 56] ∧ 64 < size
          ∧ List.Forall₂ (fun e e' : GameEntry =>
            e'.id = e.id
            ∧ (e.id = GameEntry.staticProps →
              e.length.toNat = extent [128, 4, size] [names, leaves, props] →
              e'.offset = (target.lumps.get 35).offset
                  + UInt32.ofNat (4 + 16 * new.length)
              ∧ e'.length.toNat
                = extent [128, 2, 64] [names, leaves, props]
                  + 2 * leaves + (size - 64) * props
              ∧ (e'.length.toNat = extent [128, 2, 64] [names, leaves, props]
                ↔ leaves = 0 ∧ props = 0))
            ∧ (e.id = GameEntry.detailProps →
              e.length.toNat
                = extent [128, 32, 56] [detailNames, sprites, details] →
              ∃ place, e'.offset = (target.lumps.get 35).offset
                  + UInt32.ofNat place
              ∧ place = 4 + 16 * new.length
                + extent [128, 2, 64] [names, leaves, props]
              ∧ e'.length.toNat
                = extent [128, 32, 52] [detailNames, sprites, details]
                  + 4 * details
              ∧ place + e'.length.toNat = (contents.get 35).length + 4 * details
              ∧ (e'.length.toNat
                  = extent [128, 32, 52] [detailNames, sprites, details]
                ↔ details = 0)))
            old new) := by
  obtain ⟨source, target, lumps, contents, hdecodes, hlaid, hbeside⟩ :=
    transcode_beside hfile hout
  refine ⟨source, target, lumps, contents, hdecodes, hlaid, fun hdata => ?_⟩
  obtain ⟨old, counts, hbeside⟩ := hbeside hdata
  obtain ⟨names, leaves, props, detailNames, sprites, details, rfl⟩ :=
    exists_sixCounts hbeside.six
  obtain ⟨size, hsizes, hsize⟩ := exists_vendorSize old
  have hlength : (rebased (1036 + span (lumps.toList.take 35))
      (front target contents 35).length
      [names, leaves, props, detailNames, sprites, details] old).length
      = old.length := List.length_map _
  refine ⟨old, _, size, names, leaves, props, detailNames, sprites, details,
    hbeside, hsizes, hsize, ?_⟩
  have hprops := extent_vendorProps hsize names leaves props
  have hdetails := extent_vendorDetails detailNames sprites details
  have hnone : (size - 64) * props = 0 ↔ props = 0 := by
    rw [Nat.mul_eq_zero]
    omega
  -- the detail objects end where the lump ends
  obtain ⟨stops, hwalk, hcounts⟩ := hbeside.rewalked
  have hend := hwalk.finish_eq
  rw [hcounts, extent_standardSizes] at hend
  rw [hlength] at hend ⊢
  unfold rebased
  rw [List.forall₂_map_right_iff, List.forall₂_same]
  intro e _
  refine ⟨(e.moved_kept _ _ _ _).1, fun hprop hold => ⟨?_, ?_, ?_⟩,
    fun hdetail hold => ⟨_, ?_, rfl, ?_, ?_, ?_⟩⟩
  · rw [(GameEntry.moved_staticProps hprop).2, UInt32.ofNat_add,
      hlaid.gameLump_offset]
  · rw [(e.moved_kept _ _ _ _).2.2, hold, hprops]
  · rw [(e.moved_kept _ _ _ _).2.2, hold]
    omega
  · rw [GameEntry.moved_detailProps hdetail, UInt32.ofNat_add,
      hlaid.gameLump_offset]
    rfl
  · rw [(e.moved_kept _ _ _ _).2.2, hold, hdetails]
  · rw [(e.moved_kept _ _ _ _).2.2, hold]
    omega
  · rw [(e.moved_kept _ _ _ _).2.2, hold]
    omega

/-- A directory that gives the lengths of its sections: 200 bytes for one
leaf and one prop of version 7, and 12 for no detail objects. -/
def measuredDirectory : List GameEntry :=
  [⟨GameEntry.staticProps, 0, 7, 1072, 200⟩,
    ⟨GameEntry.detailProps, 0, 4, 1272, 12⟩]

/-- The sections of the static props take 78 bytes in the output. Their
entry still says 200, which is more than the whole lump has. -/
theorem gameLump_lengths_measured :
    let lump := propLump measuredDirectory (zeros 184)
    ∃ (out : Bytes) (target : Header) (contents : Vector Bytes 64)
        (props details : GameEntry),
      (transcode true (propMap lump)).outcome = .ok out
      ∧ (readDirectory (out.slice 1036 126)).toOption
        = some [⟨GameEntry.staticProps, 0, 6, 1072, 200⟩,
          ⟨GameEntry.detailProps, 0, 4, 1150, 12⟩]
      ∧ LaidOut out target contents
      ∧ Beside lump (contents.get 35) measuredDirectory [props, details]
        [0, 1, 1, 0, 0, 0]
      ∧ (contents.get 35).length = 126
      ∧ props.id = GameEntry.staticProps
      ∧ props.length.toNat = 200
      ∧ extent [128, 2, 64] [0, 1, 1] = 78
      ∧ details.id = GameEntry.detailProps
      ∧ details.length.toNat = 12
      ∧ extent [128, 32, 52] [0, 0, 0] = 12 := by
  intro lump
  have hshort : lump.length < 0x100000000 := by
    rw [length_propLump, length_zeros]
    decide
  have hdirectory : HasDirectory lump measuredDirectory :=
    hasDirectory_written (by decide) _
  have hcounts : countsAlong lump (vendorSizes measuredDirectory) 36
      = [0, 1, 1, 0, 0, 0] := by
    decide +kernel
  have hrun : (transcode true (propMap lump)).outcome.toOption.bind
      (fun out => (readDirectory (out.slice 1036 126)).toOption)
      = some [⟨GameEntry.staticProps, 0, 6, 1072, 200⟩,
        ⟨GameEntry.detailProps, 0, 4, 1150, 12⟩] := by
    rw [(decodes_propMap hshort).transcode_eq true]
    decide +kernel
  obtain ⟨out, hout, hread⟩ := Reported.exists_ok_of_bind hrun
  obtain ⟨source, target, lumps, contents, hdecodes, hlaid, hentries⟩ :=
    gameLump_lengths (decodes_propMap hshort).ne_nil hout
  obtain ⟨-, rfl⟩ := hdecodes.unique (decodes_propMap hshort)
  rw [get_loneLumps] at hentries
  obtain ⟨old, new, size, names, leaves, props, detailNames, sprites,
    details, hbeside, hsizes, -, hentries⟩ := hentries (by decide)
  obtain rfl := hbeside.oldDirectory.unique hdirectory
  have hsix := hbeside.counts_eq.trans hcounts
  cases hsix
  cases hsizes
  cases hentries with
  | cons hprops hrest =>
  cases hrest with
  | cons hdetails hrest =>
  cases hrest
  obtain ⟨hprop, hprops, -⟩ := hprops
  obtain ⟨hdetail, -, hdetails⟩ := hdetails
  obtain ⟨-, hprops, -⟩ := hprops rfl (by decide)
  obtain ⟨place, -, rfl, hdetails, hend, -⟩ := hdetails rfl (by decide)
  rw [hdetails] at hend
  exact ⟨out, target, contents, _, _, hout, hread, hlaid, hbeside,
    hend.symm, hprop, hprops, rfl, hdetail, hdetails, rfl⟩

-- ============================================================== offsets

/-- Any other entry keeps its distance from the start of the lump. -/
theorem GameEntry.moved_other {oldBase newBase directoryEnd details : Nat}
    {e : GameEntry} (hprops : e.id ≠ staticProps)
    (hdetails : e.id ≠ detailProps) :
    (e.moved oldBase newBase directoryEnd details).offset
      = e.offset - UInt32.ofNat oldBase + UInt32.ofNat newBase := by
  unfold moved
  rw [if_neg hprops, if_neg hdetails]

/-- All that is not static props or detail objects keeps its distance from
a place in the source: the one that the game lump has behind the decoded
lumps before it. It keeps its distance from the game lump exactly if the
file has it there. -/
theorem gameLump_rebased {file out : Bytes} (hfile : file ≠ [])
    (hout : (transcode true file).outcome = .ok out) :
    ∃ (source target : Header) (lumps : Vector Lump 64)
        (contents : Vector Bytes 64),
      Decodes file source lumps
      ∧ LaidOut out target contents
      ∧ ((lumps.get 35).data ≠ [] → ∃ old new counts,
        Beside (lumps.get 35).data (contents.get 35) old new counts
        ∧ List.Forall₂ (fun e e' : GameEntry =>
          e'.id = e.id
          ∧ (e.id ≠ GameEntry.staticProps → e.id ≠ GameEntry.detailProps →
            e'.offset - (target.lumps.get 35).offset
                = e.offset
                  - UInt32.ofNat (1036 + span (lumps.toList.take 35))
            ∧ (e'.offset - (target.lumps.get 35).offset
                  = e.offset - (source.lumps.get 35).offset
              ↔ (source.lumps.get 35).offset
                = UInt32.ofNat (1036 + span (lumps.toList.take 35)))))
          old new) := by
  obtain ⟨source, target, lumps, contents, hdecodes, hlaid, hbeside⟩ :=
    transcode_beside hfile hout
  refine ⟨source, target, lumps, contents, hdecodes, hlaid, fun hdata => ?_⟩
  obtain ⟨old, counts, hbeside⟩ := hbeside hdata
  refine ⟨old, _, counts, hbeside, ?_⟩
  unfold rebased
  rw [List.forall₂_map_right_iff, List.forall₂_same]
  intro e _
  refine ⟨(e.moved_kept _ _ _ _).1, fun hprops hdetails => ?_⟩
  -- The source's base is that of the decoded lumps, not that of the file.
  have hdistance : (e.moved (1036 + span (lumps.toList.take 35))
      (front target contents 35).length (4 + 16 * old.length)
      (4 + 16 * old.length
        + extent (standardSizes.take 3) (counts.take 3))).offset
      - (target.lumps.get 35).offset
      = e.offset - UInt32.ofNat (1036 + span (lumps.toList.take 35)) := by
    rw [GameEntry.moved_other hprops hdetails, hlaid.gameLump_offset,
      UInt32.add_sub_cancel]
  refine ⟨hdistance, ?_⟩
  rw [hdistance, UInt32.sub_right_inj]
  exact eq_comm

/-- A directory with the lighting of detail objects, 20 bytes behind the
start of a lump at 1040. -/
def lightDirectory : List GameEntry := [⟨0x64706C74, 0, 1, 1060, 0⟩]

/-- A game lump with that directory and nothing in its sections. -/
def lightLump : Bytes := writtenDirectory lightDirectory ++ zeros 24

/-- A map of nothing but that lump, with four bytes before it. -/
def paddedMap : Bytes :=
  loneMap 35 ⟨1040, 44, 0, 0⟩ (zeros 4 ++ lightLump)

theorem decodes_paddedMap :
    Decodes paddedMap (loneHeader 35 ⟨1040, 44, 0, 0⟩)
      (loneLumps 35 ⟨0, lightLump⟩) := by
  refine decodes_lone (by decide) (.plain rfl ?_ ?_)
  · rw [length_loneMap]
    decide
  · exact slice_loneMap _ _ _ 4 44

/-- The lump is four bytes nearer to the start of the output, and the entry
does not move with it: it is 24 bytes behind the start of the lump there. -/
theorem gameLump_rebased_padded :
    ∃ (out : Bytes) (target : Header) (contents : Vector Bytes 64)
        (counts : List Nat) (e e' : GameEntry),
      (transcode true paddedMap).outcome = .ok out
      ∧ (readDirectory (out.slice 1036 44)).toOption
        = some [⟨0x64706C74, 0, 1, 1060, 0⟩]
      ∧ LaidOut out target contents
      ∧ Beside lightLump (contents.get 35) [e] [e'] counts
      ∧ e'.id = e.id
      ∧ e.offset - ((loneHeader 35 ⟨1040, 44, 0, 0⟩).lumps.get 35).offset = 20
      ∧ e'.offset - (target.lumps.get 35).offset = 24 := by
  have hdirectory : HasDirectory lightLump lightDirectory :=
    hasDirectory_written (by decide) _
  have hrun : (transcode true paddedMap).outcome.toOption.bind
      (fun out => (readDirectory (out.slice 1036 44)).toOption)
      = some [⟨0x64706C74, 0, 1, 1060, 0⟩] := by
    rw [decodes_paddedMap.transcode_eq true]
    decide +kernel
  obtain ⟨out, hout, hread⟩ := Reported.exists_ok_of_bind hrun
  obtain ⟨source, target, lumps, contents, hdecodes, hlaid, hentries⟩ :=
    gameLump_rebased decodes_paddedMap.ne_nil hout
  obtain ⟨rfl, rfl⟩ := hdecodes.unique decodes_paddedMap
  rw [get_loneLumps] at hentries
  obtain ⟨old, new, counts, hbeside, hentries⟩ := hentries (by decide)
  obtain rfl := hbeside.oldDirectory.unique hdirectory
  cases hentries with
  | cons hlight hrest =>
  cases hrest
  obtain ⟨hid, hlight⟩ := hlight
  obtain ⟨hdistance, -⟩ := hlight (by decide) (by decide)
  refine ⟨out, target, contents, counts, _, _, hout, hread, hlaid, hbeside,
    hid, by decide, hdistance.trans ?_⟩
  decide +kernel

end GameArchive.Map
