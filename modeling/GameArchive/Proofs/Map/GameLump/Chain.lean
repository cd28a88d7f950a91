/-
The game lump of a transcoded map.

A game lump is rewritten before the file around it exists. The places that
its directory is given are counted then, from the lumps that are done, and
come true when the file is laid out: the lump begins where the lumps before
it end, the static props behind the directory, and the detail objects
behind the three sections of the static props. A walk over the file from
there, with the standard sizes, ends where the lump ends.

Main statement: `gameLump_chain`.
-/
import GameArchive.Proofs.Map.GameLump.Directory
import GameArchive.Proofs.Map.GameLump.Sections
import GameArchive.Proofs.Map.Layout

namespace GameArchive.Map

open Bytes

variable {data : Bytes} {directory : List GameEntry}

-- ================================================================ sizes

/-- The sizes of the vendor's records. Those of static props are long if
the last entry for them has version 7. -/
def vendorSizes (directory : List GameEntry) : List Nat :=
  let props := directory.filter (·.id == GameEntry.staticProps)
  [128, 4, if props.getLast?.map (·.version) = some 7 then 184 else 72,
    128, 32, 56]

/-- The sizes of standard records. -/
def standardSizes : List Nat := [128, 2, 64, 128, 32, 52]

/-- The props are of the seventh version exactly if the last of their entries
says so. -/
theorem propsVersionOf_eq_seven_iff (directory : List GameEntry) :
    propsVersionOf directory = 7
      ↔ (directory.filter (·.id == GameEntry.staticProps)).getLast?.map
          (·.version) = some 7 := by
  rw [List.getLast?_eq_head?_reverse, ← List.filter_reverse,
    List.head?_filter]
  unfold propsVersionOf
  cases directory.reverse.find? (·.id == GameEntry.staticProps) with
  | none => exact ⟨fun h => (by cases h), fun h => by cases h⟩
  | some e => exact ⟨congrArg some, Option.some.inj⟩

/-- The sections are read in the sizes of the vendor. -/
theorem sourceSizes (directory : List GameEntry) :
    (sectionFormats (propsVersionOf directory)).map
      (·.layout.sourceSize) = vendorSizes directory := by
  unfold vendorSizes sectionFormats
  dsimp only [List.map]
  by_cases h : propsVersionOf directory = 7
  · rw [if_pos h, if_pos ((propsVersionOf_eq_seven_iff directory).mp h)]
    rfl
  · rw [if_neg h,
      if_neg fun hlast => h ((propsVersionOf_eq_seven_iff directory).mpr hlast)]
    rfl

/-- The sections are written in the standard sizes, whatever the version was. -/
theorem targetSizes (version : UInt16) :
    (sectionFormats version).map (·.layout.targetSize) = standardSizes := by
  unfold sectionFormats
  dsimp only [List.map]
  split
  · rfl
  · rfl

-- ========================================================== one game lump

/-- A game lump whose directory and whose six sections of vendor records
lie inside it. -/
def IsChain (data : Bytes) : Prop :=
  ∃ directory stops finish, HasDirectory data directory
    ∧ Walk data (vendorSizes directory) (4 + 16 * directory.length) stops
        finish

/-- The directory of a rewritten game lump. -/
def movedDirectory (oldBase newBase : Nat) (directory : List GameEntry)
    (sections : List CountedSection) : List GameEntry :=
  let directoryEnd := 4 + 16 * directory.length
  directory.map (GameEntry.moved oldBase newBase directoryEnd
    (directoryEnd + CountedSection.totalLength (sections.take 3)))

/-- No entry is added or lost. -/
theorem length_movedDirectory (oldBase newBase : Nat)
    (directory : List GameEntry) (sections : List CountedSection) :
    (movedDirectory oldBase newBase directory sections).length
      = directory.length :=
  List.length_map _

/-- A game lump is transcoded in two passes over its sections: one that finds
them and one that writes them. -/
theorem transcodeGameLump_eq (h : HasDirectory data directory)
    (oldBase newBase : Nat) :
    transcodeGameLump oldBase newBase data = do
      let sections ← CountedSection.readChain data
        (sectionFormats (propsVersionOf directory))
        (4 + 16 * directory.length)
      let body ← CountedSection.writeChain data sections
      return writtenDirectory
        (movedDirectory oldBase newBase directory sections) ++ body := by
  unfold transcodeGameLump
  rw [h.isEmpty_eq, if_neg Bool.false_ne_true, readDirectory_ok_iff.mpr h,
    Reported.ofExcept_ok, pure_bind]
  simp only [writtenDirectory, length_movedDirectory]
  rfl

/-- This succeeds exactly if the directory and all sections lie inside the lump,
and gives the moved directory and the narrowed sections. -/
theorem transcodeGameLump_ok_iff (oldBase newBase : Nat) (hdata : data ≠ [])
    {out : Bytes} :
    (transcodeGameLump oldBase newBase data).outcome = .ok out
      ↔ ∃ directory sections, HasDirectory data directory
        ∧ (CountedSection.readChain data
            (sectionFormats (propsVersionOf directory))
            (4 + 16 * directory.length)).outcome = .ok sections
        ∧ (∀ s ∈ sections, s.Fits data)
        ∧ out = writtenDirectory
            (movedDirectory oldBase newBase directory sections)
          ++ sections.flatMap (CountedSection.target data) := by
  constructor
  · intro h
    unfold transcodeGameLump at h
    rw [if_neg (by rw [List.isEmpty_iff]; exact hdata)] at h
    obtain ⟨directory, hdirectory, h⟩ := Reported.bind_ok h
    obtain ⟨sections, hsections, h⟩ := Reported.bind_ok h
    obtain ⟨body, hbody, h⟩ := Reported.bind_ok h
    cases h
    obtain ⟨hfits, rfl⟩ := CountedSection.writeChain_ok_iff.mp hbody
    refine ⟨directory, sections, readDirectory_ok_iff.mp hdirectory,
      hsections, hfits, ?_⟩
    unfold writtenDirectory
    rw [length_movedDirectory]
    rfl
  · rintro ⟨directory, sections, hdirectory, hsections, hfits, rfl⟩
    rw [transcodeGameLump_eq hdirectory]
    refine Reported.bind_ok_iff.mpr ⟨sections, hsections, ?_⟩
    exact Reported.bind_ok_iff.mpr
      ⟨_, CountedSection.writeChain_ok_iff.mpr ⟨hfits, rfl⟩, rfl⟩

/-- A game lump is rewritten exactly if all of it is there. -/
theorem exists_transcodeGameLump_iff (oldBase newBase : Nat)
    (hdata : data ≠ []) :
    (∃ out, (transcodeGameLump oldBase newBase data).outcome = .ok out)
      ↔ IsChain data := by
  constructor
  · rintro ⟨out, hout⟩
    obtain ⟨directory, sections, hdirectory, hsections, hfits, -⟩ :=
      (transcodeGameLump_ok_iff oldBase newBase hdata).mp hout
    obtain ⟨-, -, hwalk⟩ := CountedSection.readChain_ok hsections
    obtain ⟨finish, hwalk⟩ := hwalk hfits
    rw [sourceSizes] at hwalk
    exact ⟨directory, _, finish, hdirectory, hwalk⟩
  · rintro ⟨directory, stops, finish, hdirectory, hwalk⟩
    rw [← sourceSizes] at hwalk
    obtain ⟨sections, hsections, hfits⟩ :=
      CountedSection.readChain_of_walk hwalk
    exact ⟨_, (transcodeGameLump_ok_iff oldBase newBase hdata).mpr
      ⟨directory, sections, hdirectory, hsections, hfits, rfl⟩⟩

-- ====================================================== within the file

/-- Moving an entry changes only its offset and version. -/
theorem GameEntry.moved_kept (oldBase newBase directoryEnd details : Nat)
    (e : GameEntry) :
    (e.moved oldBase newBase directoryEnd details).id = e.id
      ∧ (e.moved oldBase newBase directoryEnd details).flags = e.flags
      ∧ (e.moved oldBase newBase directoryEnd details).length = e.length := by
  unfold moved
  split
  · exact ⟨rfl, rfl, rfl⟩
  · split
    · exact ⟨rfl, rfl, rfl⟩
    · exact ⟨rfl, rfl, rfl⟩

/-- Static props are put in the standard version, right behind the
directory. -/
theorem GameEntry.moved_staticProps {oldBase newBase directoryEnd details : Nat}
    {e : GameEntry} (he : e.id = staticProps) :
    (e.moved oldBase newBase directoryEnd details).version = 6
      ∧ (e.moved oldBase newBase directoryEnd details).offset
        = UInt32.ofNat (newBase + directoryEnd) := by
  unfold moved
  rw [if_pos he]
  exact ⟨rfl, rfl⟩

/-- Detail objects are put behind the sections of the static props. -/
theorem GameEntry.moved_detailProps {oldBase newBase directoryEnd details : Nat}
    {e : GameEntry} (he : e.id = detailProps) :
    (e.moved oldBase newBase directoryEnd details).offset
      = UInt32.ofNat (newBase + details) := by
  have hother : e.id ≠ staticProps := by
    rw [he]
    decide
  unfold moved
  rw [if_neg hother, if_pos he]

section

variable {oldBase newBase : Nat} {sections : List CountedSection}
  {e : GameEntry}

/-- The moved directory keeps its ids, flags and lengths. -/
theorem movedDirectory_kept :
    (movedDirectory oldBase newBase directory sections).map
        (fun e => (e.id, e.flags, e.length))
      = directory.map fun e => (e.id, e.flags, e.length) := by
  unfold movedDirectory
  dsimp only
  rw [List.map_map]
  refine List.map_congr_left fun e _ => ?_
  obtain ⟨hid, hflags, hlength⟩ := e.moved_kept oldBase newBase
    (4 + 16 * directory.length) (4 + 16 * directory.length
      + CountedSection.totalLength (sections.take 3))
  rw [Function.comp, hid, hflags, hlength]

/-- In a moved directory, static props begin right behind it, in the sixth
version. -/
theorem movedDirectory_staticProps
    (he : e ∈ movedDirectory oldBase newBase directory sections)
    (hid : e.id = GameEntry.staticProps) :
    e.version = 6 ∧ e.offset
      = UInt32.ofNat (newBase + (4 + 16 * directory.length)) := by
  obtain ⟨source, -, rfl⟩ := List.mem_map.mp he
  rw [(GameEntry.moved_kept _ _ _ _ source).1] at hid
  exact GameEntry.moved_staticProps hid

/-- Detail props begin behind the three sections of the static ones. -/
theorem movedDirectory_detailProps
    (he : e ∈ movedDirectory oldBase newBase directory sections)
    (hid : e.id = GameEntry.detailProps) :
    e.offset = UInt32.ofNat (newBase + (4 + 16 * directory.length
      + CountedSection.totalLength (sections.take 3))) := by
  obtain ⟨source, -, rfl⟩ := List.mem_map.mp he
  rw [(GameEntry.moved_kept _ _ _ _ source).1] at hid
  exact GameEntry.moved_detailProps hid

end

/-- A game lump of `length` bytes at `base` in a file is what has become of
`data`. Both have a directory, and a walk over six sections behind it; the
walk over the file ends with the lump. The entries point at sections of the
file, and the records of a section are those of the source, narrowed. -/
structure Rewritten (data out : Bytes) (base length : Nat)
    (old new : List GameEntry) (sources targets : List Stop) : Prop where
  oldDirectory : HasDirectory data old
  newDirectory : HasDirectory (out.slice base length) new
  kept : new.map (fun e => (e.id, e.flags, e.length))
    = old.map fun e => (e.id, e.flags, e.length)
  walked : ∃ finish,
    Walk data (vendorSizes old) (4 + 16 * old.length) sources finish
  rewalked : Walk out standardSizes (base + (4 + 16 * new.length)) targets
    (base + length)
  counts : targets.map (·.records) = sources.map (·.records)
  staticProps : ∃ names, targets[0]? = some names
    ∧ ∀ e ∈ new, e.id = GameEntry.staticProps →
      e.version = 6 ∧ e.offset.toInt32.toInt = names.place
  detailProps : ∃ names, targets[3]? = some names
    ∧ ∀ e ∈ new, e.id = GameEntry.detailProps →
      e.offset.toInt32.toInt = names.place
  records : ∀ {i : Nat} {format : SectionFormat},
    (sectionFormats (propsVersionOf old))[i]? = some format →
      ∃ source target, sources[i]? = some source ∧ targets[i]? = some target
        ∧ ∀ k, k < source.records →
          target.record out format.layout.targetSize k
              = (format.layout.narrow
                  (source.record data format.layout.sourceSize k)).1
            ∧ (target.record out format.layout.targetSize k).length
              = format.layout.targetSize

section

variable {sections : List CountedSection} {version : UInt16}
  (hformats : sections.map (·.format) = sectionFormats version)

include hformats

theorem targetSizes_of_formats :
    sections.map (·.format.layout.targetSize) = standardSizes := by
  rw [← targetSizes version, ← hformats, List.map_map]
  rfl

/-- Each format has its section. -/
theorem exists_section {i : Nat} {format : SectionFormat}
    (hi : (sectionFormats version)[i]? = some format) :
    ∃ s, sections[i]? = some s ∧ s.format = format := by
  rw [← hformats, List.getElem?_map] at hi
  exact Option.map_eq_some_iff.mp hi

end

/-- The directory takes as much space as before. -/
theorem length_writtenDirectory_moved (oldBase newBase : Nat)
    (directory : List GameEntry) (sections : List CountedSection) :
    (writtenDirectory
        (movedDirectory oldBase newBase directory sections)).length
      = 4 + 16 * directory.length := by
  rw [length_writtenDirectory, length_movedDirectory]

/-- With something before it and behind it, a lump that is written is walked
with the standard sizes, from behind its directory to its end. -/
theorem walk_writtenLump {version : UInt16} {sections : List CountedSection}
    (hformats : sections.map (·.format) = sectionFormats version)
    (hcounts : ∀ s ∈ sections, s.count = data.i32At s.offset)
    (hfits : ∀ s ∈ sections, s.Fits data) (oldBase newBase : Nat)
    (directory : List GameEntry) (before after : Bytes) :
    Walk (before ++ (writtenDirectory
          (movedDirectory oldBase newBase directory sections)
        ++ sections.flatMap (CountedSection.target data) ++ after))
      standardSizes (before.length + (4 + 16 * directory.length))
      (CountedSection.targetStops
        (before.length + (4 + 16 * directory.length)) sections)
      (before.length + (writtenDirectory
          (movedDirectory oldBase newBase directory sections)
        ++ sections.flatMap (CountedSection.target data)).length) := by
  have hdirectory :=
    length_writtenDirectory_moved oldBase newBase directory sections
  have hwritten := CountedSection.walk_written hcounts hfits
    (before ++ writtenDirectory
      (movedDirectory oldBase newBase directory sections)) after
  rw [targetSizes_of_formats hformats, List.length_append, hdirectory,
    Nat.add_assoc before.length, List.append_assoc] at hwritten
  rw [List.length_append, hdirectory, CountedSection.length_written hfits,
    List.append_assoc]
  exact hwritten

/-- A rewritten game lump is one wherever it lies in a file, if it was
rewritten for that place. -/
theorem exists_rewritten {oldBase : Nat} {before lump after : Bytes}
    (hdata : data ≠ [])
    (hlump : (transcodeGameLump oldBase before.length data).outcome
      = .ok lump)
    (hshort : (before ++ (lump ++ after)).length < 0x80000000) :
    ∃ old new sources targets, Rewritten data (before ++ (lump ++ after))
      before.length lump.length old new sources targets := by
  obtain ⟨old, sections, hold, hsections, hfits, rfl⟩ :=
    (transcodeGameLump_ok_iff oldBase before.length hdata).mp hlump
  obtain ⟨hformats, hcounts, hwalk⟩ :=
    CountedSection.readChain_ok hsections
  obtain ⟨finish, hwalk⟩ := hwalk hfits
  have hdirectory := length_writtenDirectory_moved oldBase before.length old
    sections
  -- the file, cut behind the directory
  have hhead : (before ++ writtenDirectory
      (movedDirectory oldBase before.length old sections)).length
      = before.length + (4 + 16 * old.length) := by
    rw [List.length_append, hdirectory]
  have hout : ∀ head body : Bytes, before ++ ((head ++ body) ++ after)
      = (before ++ head) ++ (body ++ after) := by
    intro head body
    simp only [List.append_assoc]
  have hlength : (writtenDirectory
      (movedDirectory oldBase before.length old sections)
        ++ sections.flatMap (CountedSection.target data)).length
      = 4 + 16 * old.length + CountedSection.totalLength sections := by
    rw [List.length_append, hdirectory, CountedSection.length_written hfits]
  have hinside : before.length + (4 + 16 * old.length
      + CountedSection.totalLength sections) < 0x80000000 := by
    rw [List.length_append, List.length_append, hlength] at hshort
    omega
  have htake := CountedSection.totalLength_take_le sections 3
  refine ⟨old, movedDirectory oldBase before.length old sections,
    sections.map CountedSection.stop, CountedSection.targetStops
      (before.length + (4 + 16 * old.length)) sections, ?_⟩
  exact {
    oldDirectory := hold
    newDirectory := by
      rw [slice_middle]
      refine hasDirectory_written ?_ _
      rw [length_movedDirectory]
      omega
    kept := movedDirectory_kept
    walked := by
      rw [← sourceSizes]
      exact ⟨finish, hwalk⟩
    rewalked := by
      rw [length_movedDirectory]
      exact walk_writtenLump hformats hcounts hfits oldBase before.length old
        before after
    counts := CountedSection.records_targetStops sections _
    staticProps := by
      obtain ⟨s, hs, -⟩ := exists_section hformats (i := 0) rfl
      refine ⟨_, CountedSection.targetStops_getElem? hs, fun e he hid => ?_⟩
      obtain ⟨hversion, hoffset⟩ := movedDirectory_staticProps he hid
      refine ⟨hversion, ?_⟩
      rw [hoffset, toInt_ofNat (by omega)]
      rfl
    detailProps := by
      obtain ⟨s, hs, -⟩ := exists_section hformats (i := 3) rfl
      refine ⟨_, CountedSection.targetStops_getElem? hs, fun e he hid => ?_⟩
      rw [movedDirectory_detailProps he hid, toInt_ofNat (by omega),
        ← Nat.add_assoc]
    records := by
      intro i format hi
      obtain ⟨s, hs, rfl⟩ := exists_section hformats hi
      have hfit := hfits s (List.mem_of_getElem? hs)
      refine ⟨s.stop, _, ?_, CountedSection.targetStops_getElem? hs,
        fun k hk => ?_⟩
      · rw [List.getElem?_map, hs]
        rfl
      · have hrecord := CountedSection.record_written hfits
          (before ++ writtenDirectory
            (movedDirectory oldBase before.length old sections)) after hs hk
        rw [hhead] at hrecord
        rw [hout, hrecord]
        exact ⟨rfl, CountedSection.length_narrow_record hfit hk⟩ }

/-- A game lump is rewritten exactly if its directory and its six sections
lie inside it; and the file of a transcoded map holds it, where its header
says, as a directory that points at sections, and as sections that end
where the lump ends. -/
theorem gameLump_chain :
    (∀ (oldBase newBase : Nat) {data : Bytes}, data ≠ [] →
      ((∃ out, (transcodeGameLump oldBase newBase data).outcome = .ok out)
        ↔ IsChain data))
    ∧ ∀ {file out : Bytes}, file ≠ [] →
      (transcode true file).outcome = .ok out → out.length < 0x80000000 →
      ∃ (source target : Header) (lump : Lump),
        Header.parse? file = some source
        ∧ Header.parse? out = some target
        ∧ decodeLump file 35 source.lumps[35] = .ok lump
        ∧ (lump.data ≠ [] → ∃ old new sources targets,
            Rewritten lump.data out target.lumps[35].offset.toNat
              target.lumps[35].length.toNat old new sources targets) := by
  constructor
  · intro oldBase newBase data hdata
    exact exists_transcodeGameLump_iff oldBase newBase hdata
  · intro file out hfile hout hshort
    obtain ⟨source, target, contents, lumps, hsource, hlaid, htreated⟩ :=
      transcode_treated hfile hout
    obtain ⟨lump, -, hdecode, hlump⟩ := htreated 35 (by decide)
    refine ⟨source, target, lump, hsource, hlaid.parses, hdecode, ?_⟩
    intro hdata
    have hid : 35 < 64 := by decide
    obtain ⟨hoffset, hlength⟩ := hlaid.entry_exact (by omega) hid
    rw [hoffset, hlength, ← hlaid.length_front]
    have hcut := hlaid.cut hid
    rw [hcut] at hshort ⊢
    exact exists_rewritten hdata hlump hshort

-- ================================================= a map of one prop

/-- A game lump of one leaf that is out of range and one static prop; its
names are counted below zero. -/
def propLump (directory : List GameEntry) (prop : Bytes) : Bytes :=
  writtenDirectory directory ++ (ofUInt32 0xFFFFFFFF ++ (ofUInt32 1
    ++ (ofUInt32 70000 ++ (ofUInt32 1 ++ (prop ++ zeros 12)))))

/-- Such a lump is as long as its directory and its prop, with 32 bytes for all
the rest. -/
theorem length_propLump (directory : List GameEntry) (prop : Bytes) :
    (propLump directory prop).length
      = 16 * directory.length + prop.length + 32 := by
  unfold propLump
  simp only [List.length_append, length_writtenDirectory, length_ofUInt32,
    length_zeros]
  omega

/-- The game lump of such a map is the one it has. -/
theorem get_loneLumps (lump : Lump) : (loneLumps 35 lump).get 35 = lump :=
  getElem_loneLumps (by decide) lump

/-- A map of nothing but such a lump, which lies right behind its header. -/
def propMap (lump : Bytes) : Bytes :=
  loneMap 35 ⟨1036, UInt32.ofNat lump.length, 0, 0⟩ lump

/-- Such a map can be decoded, if the length of the lump can be written in a
word. -/
theorem decodes_propMap {lump : Bytes} (h : lump.length < 0x100000000) :
    Decodes (propMap lump)
      (loneHeader 35 ⟨1036, UInt32.ofNat lump.length, 0, 0⟩)
      (loneLumps 35 ⟨0, lump⟩) := by
  have hlength : (UInt32.ofNat lump.length).toNat = lump.length :=
    UInt32.toNat_ofNat_of_lt' h
  refine decodes_lone (by decide : (0 : UInt32) &&& 0x10000 = 0)
    (.plain rfl ?_ ?_)
  · show 1036 + (UInt32.ofNat lump.length).toNat ≤ _
    exact Nat.le_of_eq (by rw [length_loneMap, hlength])
  · show slice _ 1036 (UInt32.ofNat lump.length).toNat = lump
    rw [hlength]
    exact (slice_loneMap _ _ _ 0 _).trans List.take_length

/-- The directory of such a lump, with its static props in a version. -/
def propDirectory (version : UInt16) : List GameEntry :=
  [⟨GameEntry.staticProps, 0, version, 5000, 0⟩,
    ⟨GameEntry.detailProps, 0, 4, 6000, 0⟩]

/-- The lump of a prop in the long format is whole, and becomes one of 126
bytes in a file. -/
theorem gameLump_chain_sample :
    let lump := propLump (propDirectory 7) (List.replicate 184 1)
    lump ≠ []
      ∧ IsChain lump
      ∧ ∃ (out : Bytes) (target : Header)
          (old new : List GameEntry) (sources targets : List Stop),
        (transcode true (propMap lump)).outcome = .ok out
        ∧ out.length = 1036 + 126
        ∧ Header.parse? out = some target
        ∧ Rewritten lump out target.lumps[35].offset.toNat
            target.lumps[35].length.toNat old new sources targets := by
  intro lump
  have hlump : lump ≠ [] := by
    decide
  have hsize : lump.length < 0x100000000 := by
    rw [length_propLump, List.length_replicate]
    decide
  have hdecodes := decodes_propMap hsize
  have halone : (transcodeGameLump 0 0 lump).outcome.toOption.map List.length
      = some 126 := by
    decide +kernel
  obtain ⟨alone, halone, -⟩ := Reported.exists_ok_of_map halone
  have hlength : (transcode true (propMap lump)).outcome.toOption.map
      List.length = some 1162 := by
    rw [hdecodes.transcode_eq true]
    decide +kernel
  obtain ⟨out, hout, hshort⟩ := Reported.exists_ok_of_map hlength
  obtain ⟨source, target, found, hsource, htarget, hdecode, hchain⟩ :=
    gameLump_chain.2 hdecodes.ne_nil hout (by omega)
  -- the lump that was found is the one that the map was made of
  obtain rfl := Option.some.inj
    ((vendorHeader_parses hdecodes.vendor).symm.trans hsource)
  have hfound := Except.ok.inj
    ((hdecodes.lump 35 (by decide)).symm.trans hdecode)
  rw [getElem_loneLumps] at hfound
  subst hfound
  obtain ⟨old, new, sources, targets, hrewritten⟩ := hchain hlump
  exact ⟨hlump, (gameLump_chain.1 0 0 hlump).mp ⟨alone, halone⟩, out, target,
    old, new, sources, targets, hout, hshort, htarget, hrewritten⟩

end GameArchive.Map
