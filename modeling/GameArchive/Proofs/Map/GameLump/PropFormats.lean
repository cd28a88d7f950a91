/-
The two formats of static props.

A static prop of version 7 is one of version 6 with more bytes behind it,
all of which are left out. The format is told by the directory, and decides
where every later section of the source lies, so two game lumps that say
the same in the two formats agree at no offset behind the props. They are
walked side by side instead: `SideBySide` has a place in either lump and
asks that both hold the same there, and each section keeps the two walks in
step. What is written depends on the counts and on what the records are
narrowed to, which are the same on both sides; so are the lengths of the
sections that are written, and with them all that the directory is given.

The lumps behind the game lump do not see where the source had them.

Main statement: `transcode_propFormats`.
-/
import GameArchive.Proofs.Map.GameLump.Chain
import Mathlib.Data.List.Forall2

namespace GameArchive.Map

open Bytes

-- ============================================================== records

namespace RecordLayout

/-- Bytes that are left out at the end of a record do not count. -/
theorem narrow_append_drop (layout : RecordLayout) (length : Nat) :
    ∀ record : Bytes,
      narrow (layout ++ [.drop length]) record = narrow layout record := by
  induction layout with
  | nil => exact fun _ => rfl
  | cons part rest ih =>
      intro record
      rw [List.cons_append]
      cases part with
      | keep kept => rw [narrow_keep, narrow_keep, ih]
      | drop dropped => rw [narrow_drop, narrow_drop, ih]
      | fill filled => rw [narrow_fill, narrow_fill, ih]
      | narrow width field => rw [narrow_narrow, narrow_narrow, ih]

/-- Bytes behind a record change nothing of it. -/
theorem narrow_take (layout : RecordLayout) :
    ∀ record : Bytes,
      narrow layout (record.take layout.sourceSize) = narrow layout record := by
  induction layout with
  | nil => exact fun _ => rfl
  | cons part rest ih =>
      intro record
      have hfirst : (record.take (part.sourceSize + sourceSize rest)).take
          part.sourceSize = record.take part.sourceSize := by
        rw [List.take_take, Nat.min_eq_left (Nat.le_add_right _ _)]
      have hrest : narrow rest
          ((record.take (part.sourceSize + sourceSize rest)).drop
            part.sourceSize)
          = narrow rest (record.drop part.sourceSize) := by
        rw [List.drop_take, Nat.add_sub_cancel_left, ih]
      unfold sourceSize
      cases part with
      | keep kept =>
          rw [narrow_keep, narrow_keep]
          exact congrArg₂ (fun head tail => (head ++ tail.1, tail.2)) hfirst
            hrest
      | drop dropped =>
          rw [narrow_drop, narrow_drop]
          exact hrest
      | fill filled =>
          rw [narrow_fill, narrow_fill]
          exact congrArg (fun tail => (zeros filled ++ tail.1, tail.2)) hrest
      | narrow width field =>
          have hword : u32At (record.take
              ((Part.narrow width field).sourceSize + sourceSize rest)) 0
              = record.u32At 0 := by
            unfold u32At slice
            exact congrArg (fun word => UInt32.ofNat (toNat word)) hfirst
          rw [narrow_narrow, narrow_narrow, hword]
          exact congrArg (fun tail => (Bytes.ofNat width.size
            (record.u32At 0).toNat ++ tail.1,
            if width.fits (width.value (record.u32At 0)) then tail.2
            else ⟨field, width.value (record.u32At 0)⟩ :: tail.2)) hrest

end RecordLayout

/-- A section in one format has records that begin like those in the other,
and does not look further than they reach. -/
structure SectionFormat.Extends (long short : SectionFormat) : Prop where
  part : long.part = short.part
  keepsCount : long.keepsCount = short.keepsCount
  targetSize : long.layout.targetSize = short.layout.targetSize
  narrow : ∀ record, short.layout.narrow
      (record.take short.layout.sourceSize) = long.layout.narrow record

theorem SectionFormat.Extends.refl (format : SectionFormat) :
    format.Extends format :=
  ⟨rfl, rfl, rfl, format.layout.narrow_take⟩

/-- The formats of version 7 extend those of any other version. -/
theorem sectionFormats_extends {version : UInt16} (h : version ≠ 7) :
    List.Forall₂ SectionFormat.Extends (sectionFormats 7)
      (sectionFormats version) := by
  unfold sectionFormats
  rw [if_pos rfl, if_neg h]
  refine .cons (.refl _) (.cons (.refl _) (.cons ?_ (.cons (.refl _)
    (.cons (.refl _) (.cons (.refl _) .nil)))))
  exact ⟨rfl, rfl, rfl, fun record =>
    (RecordLayout.narrow_take .prop record).trans
      (RecordLayout.narrow_append_drop .prop 112 record).symm⟩

-- ============================================================= sections

/-- Sections that follow each other from a place on in each of two lumps,
with records of given sizes, hold the same: counts are the same, and a
record of the shorter size is the beginning of the one that has its index
on the other side. -/
inductive SideBySide (long short : Bytes) :
    (sizes : List (Nat × Nat)) → (p q : Nat) → Prop
  | done (p q : Nat) : SideBySide long short [] p q
  | next {m n p q c : Nat} {sizes : List (Nat × Nat)}
      (hcount : long.i32At p = short.i32At q)
      (hrecords : c = (long.i32At p).toNat)
      (hlong : p + 4 + c * m ≤ long.length)
      (hshort : q + 4 + c * n ≤ short.length)
      (hsame : ∀ k, k < c → short.slice (q + 4 + k * n) n
        = (long.slice (p + 4 + k * m) m).take n)
      (hrest : SideBySide long short sizes (p + 4 + c * m)
        (q + 4 + c * n)) :
      SideBySide long short ((m, n) :: sizes) p q

namespace CountedSection

variable {long short : Bytes}

/-- Two sections of which the same is written. -/
structure WrittenAlike (long short : Bytes) (s t : CountedSection) :
    Prop where
  write : s.write long = t.write short
  targetLength : s.targetLength = t.targetLength

/-- Sections whose records differ only in what the longer format leaves out are
written alike. -/
theorem writtenAlike {f g : SectionFormat} (hformats : f.Extends g)
    {p q : Nat} (hcount : long.i32At p = short.i32At q)
    (hlong : p + 4 + (long.i32At p).toNat * f.layout.sourceSize
      ≤ long.length)
    (hshort : q + 4 + (long.i32At p).toNat * g.layout.sourceSize
      ≤ short.length)
    (hsame : ∀ k, k < (long.i32At p).toNat →
      short.slice (q + 4 + k * g.layout.sourceSize) g.layout.sourceSize
        = (long.slice (p + 4 + k * f.layout.sourceSize)
            f.layout.sourceSize).take g.layout.sourceSize) :
    WrittenAlike long short ⟨f, p, long.i32At p⟩ ⟨g, q, short.i32At q⟩ := by
  -- Narrowing sees of a long record only what the short one has.
  have hnarrow : ∀ k, k < (long.i32At p).toNat →
      g.layout.narrow (Stop.record short ⟨q, (long.i32At p).toNat⟩
          g.layout.sourceSize k)
        = f.layout.narrow (Stop.record long ⟨p, (long.i32At p).toNat⟩
            f.layout.sourceSize k) := by
    intro k hk
    rw [← hformats.narrow]
    exact congrArg g.layout.narrow (hsame k hk)
  rw [← hcount]
  have hfits : Fits long ⟨f, p, long.i32At p⟩ := hlong
  have hfits' : Fits short ⟨g, q, long.i32At p⟩ := hshort
  constructor
  case write =>
      rw [write_eq hfits, write_eq hfits']
      unfold target storedCount records
      dsimp only
      rw [hformats.part, hformats.keepsCount]
      congr 1
      · refine List.flatMap_congr fun k hk => ?_
        exact congrArg (fun narrowed => RecordLayout.overflowWarnings _ k
          narrowed.2) (hnarrow k (List.mem_range.mp hk)).symm
      · congr 2
        refine List.flatMap_congr fun k hk => ?_
        exact congrArg Prod.fst (hnarrow k (List.mem_range.mp hk)).symm
  case targetLength =>
      unfold targetLength
      rw [hformats.targetSize]
      rfl

/-- Where there is room for a count, the chain goes on behind its records. -/
theorem readChain_cons {data : Bytes} {format : SectionFormat}
    {rest : List SectionFormat} {offset : Nat} {warnings : List Warning}
    {sections : List CountedSection} (h : offset + 4 ≤ data.length)
    (hrest : readChain data rest
        (offset + 4 + (data.i32At offset).toNat * format.layout.sourceSize)
      = ⟨warnings, .ok sections⟩) :
    readChain data (format :: rest) offset
      = ⟨(if data.i32At offset < 0
            then [.negativeCount format.part (data.i32At offset)] else [])
          ++ warnings,
        .ok (⟨format, offset, data.i32At offset⟩ :: sections)⟩ := by
  unfold readChain
  rw [read_eq h, Reported.ok_bind]
  unfold sourceLength records
  dsimp only
  rw [← Nat.add_assoc, hrest, Reported.ok_bind]
  show (⟨_ ++ (warnings ++ []), _⟩ : Step _) = _
  rw [List.append_nil]
  rfl

/-- Sections that stand side by side are read with the same warnings, and
the same is written of them. -/
theorem readChain_sideBySide {formats others : List SectionFormat}
    (hformats : List.Forall₂ SectionFormat.Extends formats others) :
    ∀ {p q : Nat}, SideBySide long short
        (List.zipWith (fun f g => (f.layout.sourceSize, g.layout.sourceSize))
          formats others) p q →
      ∃ warnings ss ts, readChain long formats p = ⟨warnings, .ok ss⟩
        ∧ readChain short others q = ⟨warnings, .ok ts⟩
        ∧ List.Forall₂ (WrittenAlike long short) ss ts := by
  induction hformats with
  | nil => exact fun _ => ⟨[], [], [], rfl, rfl, .nil⟩
  | cons hformat _ ih =>
      intro p q hside
      cases hside with
      | next hcount hrecords hlong hshort hsame hrest =>
          subst hrecords
          obtain ⟨warnings, ss, ts, hss, hts, halike⟩ := ih hrest
          have hfirst := writtenAlike hformat hcount hlong hshort hsame
          refine ⟨_, _, _, readChain_cons (by omega) hss, ?_,
            .cons hfirst halike⟩
          rw [hcount, hformat.part]
          rw [hcount] at hts
          exact readChain_cons (by omega) hts

/-- Sections that are written alike one by one are written alike in a row. -/
theorem writeChain_alike {ss ts : List CountedSection}
    (h : List.Forall₂ (WrittenAlike long short) ss ts) :
    writeChain long ss = writeChain short ts := by
  induction h with
  | nil => rfl
  | cons hfirst _ ih =>
      unfold writeChain
      rw [hfirst.write, ih]

theorem totalLength_alike {ss ts : List CountedSection}
    (h : List.Forall₂ (WrittenAlike long short) ss ts) :
    totalLength ss = totalLength ts := by
  induction h with
  | nil => rfl
  | cons hfirst _ ih =>
      unfold totalLength
      rw [hfirst.targetLength, ih]

end CountedSection

-- ============================================================ game lumps

/-- Two entries that differ at most in the version of static props. -/
def GameEntry.SameButPropVersion (e f : GameEntry) : Prop :=
  ∃ version, f = { e with version := version }
    ∧ (e.id ≠ staticProps → version = e.version)

/-- Static props get a version of their own, whatever they had. -/
theorem GameEntry.SameButPropVersion.moved_eq {e f : GameEntry}
    (h : e.SameButPropVersion f) (oldBase newBase directoryEnd details : Nat) :
    e.moved oldBase newBase directoryEnd details
      = f.moved oldBase newBase directoryEnd details := by
  obtain ⟨version, rfl, hversion⟩ := h
  unfold moved
  by_cases hprops : e.id = staticProps
  · rw [if_pos hprops, if_pos hprops]
  · rw [hversion hprops]

/-- Two game lumps that say the same, one with its static props in the long
format, and one with them in the short format. -/
structure SameButPropFormat (long short : Bytes)
    (longDirectory shortDirectory : List GameEntry) : Prop where
  inLong : HasDirectory long longDirectory
  inShort : HasDirectory short shortDirectory
  entries : List.Forall₂ GameEntry.SameButPropVersion longDirectory
    shortDirectory
  longVersion : (longDirectory.filter
    (·.id == GameEntry.staticProps)).getLast?.map (·.version) = some 7
  shortVersion : (shortDirectory.filter
    (·.id == GameEntry.staticProps)).getLast?.map (·.version) ≠ some 7
  sections : SideBySide long short
    [(128, 128), (4, 4), (184, 72), (128, 128), (32, 32), (56, 56)]
    (4 + 16 * longDirectory.length) (4 + 16 * shortDirectory.length)

/-- Two lumps that are the same but for the format of their props are transcoded
to the same. -/
theorem transcodeGameLump_propFormats {long short : Bytes}
    {longDirectory shortDirectory : List GameEntry}
    (h : SameButPropFormat long short longDirectory shortDirectory)
    (oldBase newBase : Nat) :
    transcodeGameLump oldBase newBase long
      = transcodeGameLump oldBase newBase short := by
  have hlong : propsVersionOf longDirectory = 7 :=
    (propsVersionOf_eq_seven_iff _).mpr h.longVersion
  have hshort : propsVersionOf shortDirectory ≠ 7 := fun hseven =>
    h.shortVersion ((propsVersionOf_eq_seven_iff _).mp hseven)
  have hformats := sectionFormats_extends hshort
  have hsizes : List.zipWith
      (fun f g => (f.layout.sourceSize, g.layout.sourceSize))
      (sectionFormats 7) (sectionFormats (propsVersionOf shortDirectory))
      = [(128, 128), (4, 4), (184, 72), (128, 128), (32, 32), (56, 56)] := by
    unfold sectionFormats
    rw [if_pos rfl, if_neg hshort]
    rfl
  obtain ⟨warnings, ss, ts, hss, hts, halike⟩ :=
    CountedSection.readChain_sideBySide hformats (hsizes ▸ h.sections)
  have hdetails := CountedSection.totalLength_alike
    (List.forall₂_take 3 halike)
  have hmoved : movedDirectory oldBase newBase longDirectory ss
      = movedDirectory oldBase newBase shortDirectory ts := by
    unfold movedDirectory
    rw [h.entries.length_eq, hdetails, ← List.forall₂_eq_eq_eq,
      List.forall₂_map_left_iff, List.forall₂_map_right_iff]
    exact h.entries.imp fun _ _ hentry => hentry.moved_eq _ _ _ _
  rw [transcodeGameLump_eq h.inLong, transcodeGameLump_eq h.inShort, hlong,
    hss, hts, Reported.ok_bind, Reported.ok_bind,
    CountedSection.writeChain_alike halike, hmoved]

-- ============================================================= the lumps

/-- Only one lump is a game lump. -/
theorem eq_of_ofLump_eq_gameLump {id : Nat}
    (h : Treatment.ofLump id = .gameLump) : id = 35 := by
  unfold Treatment.ofLump at h
  split at h
  any_goals cases h
  rfl

/-- No lump but the game lump sees where the source had it. -/
theorem treatLump_anywhere {id : Nat} (hid : id ≠ 35)
    (oldBase otherBase newBase : Nat) (lump : Lump) :
    treatLump id oldBase newBase lump
      = treatLump id otherBase newBase lump := by
  unfold treatLump
  cases htreatment : Treatment.ofLump id with
  | gameLump => exact absurd (eq_of_ofLump_eq_gameLump htreatment) hid
  | copy => rfl
  | narrow layout => rfl
  | leaves => rfl
  | pak => rfl

/-- Lumps are treated one by one, and both positions move on. -/
theorem treatLumps_cons (id oldBase newBase : Nat) (lump : Lump)
    (rest : List Lump) :
    treatLumps id oldBase newBase (lump :: rest) = do
      let data ← treatLump id oldBase newBase lump
      let tail ← treatLumps (id + 1) (oldBase + lump.data.length)
        (newBase + data.length) rest
      return ⟨lump.version, data⟩ :: tail :=
  rfl

/-- Behind the game lump, it does not matter any more where lumps were
before. -/
theorem treatLumps_anywhere {lumps : List Lump} :
    ∀ {id : Nat} (_ : 35 < id) (oldBase otherBase newBase : Nat),
      treatLumps id oldBase newBase lumps
        = treatLumps id otherBase newBase lumps := by
  induction lumps with
  | nil => exact fun _ _ _ _ => rfl
  | cons lump rest ih =>
      intro id hid oldBase otherBase newBase
      rw [treatLumps_cons, treatLumps_cons,
        treatLump_anywhere (Nat.ne_of_gt hid) oldBase otherBase]
      congr 1
      funext data
      rw [ih (Nat.lt_succ_of_lt hid) _ (otherBase + lump.data.length)]

/-- Lumps are treated from the first to the last, so a change in one of them
shows no earlier. -/
theorem treatLumps_append {before after : List Lump} :
    ∀ {id oldBase newBase : Nat},
      treatLumps id oldBase newBase (before ++ after) = do
        let head ← treatLumps id oldBase newBase before
        let tail ← treatLumps (id + before.length) (oldBase + span before)
          (newBase + span head) after
        return head ++ tail := by
  induction before with
  | nil =>
      intro id oldBase newBase
      show treatLumps id oldBase newBase after
        = pure [] >>= fun head => _
      rw [pure_bind]
      exact (bind_pure _).symm
  | cons lump rest ih =>
      intro id oldBase newBase
      rw [List.cons_append, treatLumps_cons, treatLumps_cons]
      simp only [ih, bind_assoc, pure_bind, span_cons, List.length_cons,
        List.cons_append, Nat.add_assoc, Nat.add_comm 1]

/-- A list of lumps at one of them. -/
theorem exists_around (lumps : Vector Lump 64) {id : Nat} (hid : id < 64) :
    ∃ before after : List Lump, before.length = id
      ∧ ∀ lump, (lumps.set id lump).toList = before ++ lump :: after := by
  have hlength : id < lumps.toList.length := by
    rw [Vector.length_toList]
    exact hid
  refine ⟨lumps.toList.take id, lumps.toList.drop (id + 1), ?_,
    fun lump => ?_⟩
  · rw [List.length_take, Nat.min_eq_left (Nat.le_of_lt hlength)]
  · rw [Vector.toList_set, List.set_eq_take_append_cons_drop,
      if_pos hlength]

/-- Two maps of the same revision with the same lumps, but that one has the
static props of its game lump in the long format and the other in the short
format, are transcoded alike: to the same bytes or the same error, with the
same warnings. -/
theorem transcode_propFormats {a b : Bytes} {first second : Header}
    {lumps others : Vector Lump 64}
    {longDirectory shortDirectory : List GameEntry}
    (ha : Decodes a first lumps) (hb : Decodes b second others)
    (hrevision : first.revision = second.revision)
    (hothers : ∀ (id : Nat) (hid : id < 64), id ≠ 35 → others[id] = lumps[id])
    (hversion : (others.get 35).version = (lumps.get 35).version)
    (hlumps : SameButPropFormat (lumps.get 35).data (others.get 35).data
      longDirectory shortDirectory) :
    transcode true a = transcode true b := by
  -- The two maps have the same lumps before and behind the game lump.
  have hset : others = lumps.set 35 ⟨(lumps.get 35).version,
      (others.get 35).data⟩ := by
    refine Vector.ext fun id hid => ?_
    rw [Vector.getElem_set]
    by_cases hgame : 35 = id
    · rw [if_pos hgame, ← hversion]
      subst hgame
      rfl
    · rw [if_neg hgame]
      exact hothers id hid (Ne.symm hgame)
  obtain ⟨before, after, hbefore, haround⟩ :=
    exists_around lumps (by decide : 35 < 64)
  have hself : lumps.toList = before ++ lumps.get 35 :: after := by
    rw [← haround]
    exact congrArg Vector.toList (Vector.set_getElem_self _).symm
  rw [ha.transcode_eq, hb.transcode_eq, hrevision, hset, haround, hself]
  unfold build
  rw [if_pos rfl, if_pos rfl, treatLumps_append, treatLumps_append, hbefore]
  congr 2
  funext head
  rw [treatLumps_cons, treatLumps_cons,
    show treatLump (0 + 35) _ _ (lumps.get 35)
      = treatLump (0 + 35) _ _ ⟨(lumps.get 35).version, (others.get 35).data⟩
      from transcodeGameLump_propFormats hlumps _ _]
  congr 2
  funext data
  -- The lumps behind have moved in the source, but nothing looks at this.
  rw [treatLumps_anywhere (by decide)]

/-- One prop in 184 bytes and the same one in 72, in lumps that differ in
nothing else. -/
theorem sameButPropFormat_sample :
    SameButPropFormat (propLump (propDirectory 7) (List.replicate 184 1))
      (propLump (propDirectory 6) (List.replicate 72 1)) (propDirectory 7)
      (propDirectory 6) where
  inLong := hasDirectory_written (by decide) _
  inShort := hasDirectory_written (by decide) _
  entries := .cons ⟨6, rfl, fun h => absurd rfl h⟩
    (.cons ⟨4, rfl, fun _ => rfl⟩ .nil)
  longVersion := rfl
  shortVersion := by decide
  sections := by
    have hnone : ∀ {p : Nat → Prop} (k : Nat), k < 0 → p k :=
      fun k hk => absurd hk (Nat.not_lt_zero k)
    refine .next (c := 0) ?_ ?_ ?_ ?_ hnone (.next (c := 1) ?_ ?_
      ?_ ?_ ?_ (.next (c := 1) ?_ ?_ ?_ ?_ ?_ (.next (c := 0)
      ?_ ?_ ?_ ?_ hnone (.next (c := 0) ?_ ?_ ?_ ?_ hnone
      (.next (c := 0) ?_ ?_ ?_ ?_ hnone (.done _ _))))))
    all_goals decide +kernel

/-- A map in either format, with something to report in each section that
has records, and the same of both. -/
theorem transcode_propFormats_sample :
    let long := propLump (propDirectory 7) (List.replicate 184 1)
    let short := propLump (propDirectory 6) (List.replicate 72 1)
    SameButPropFormat long short (propDirectory 7) (propDirectory 6)
      ∧ transcode true (propMap long) = transcode true (propMap short)
      ∧ (transcode true (propMap short)).warnings.length = 4
      ∧ (transcode true (propMap short)).outcome.toOption.map
        List.length = some 1162 := by
  intro long short
  have hlong : long.length < 0x100000000 := by
    rw [length_propLump, List.length_replicate]
    decide
  have hshort : short.length < 0x100000000 := by
    rw [length_propLump, List.length_replicate]
    decide
  have hsame : SameButPropFormat ((loneLumps 35 ⟨0, long⟩).get 35).data
      ((loneLumps 35 ⟨0, short⟩).get 35).data (propDirectory 7)
      (propDirectory 6) := by
    rw [get_loneLumps, get_loneLumps]
    exact sameButPropFormat_sample
  refine ⟨sameButPropFormat_sample, ?_, ?_⟩
  · refine transcode_propFormats (decodes_propMap hlong)
      (decodes_propMap hshort) ((revision_loneHeader 35 _).trans
        (revision_loneHeader 35 _).symm) (fun id hid hother => ?_) ?_ hsame
    · unfold loneLumps
      rw [Vector.getElem_ofFn, Vector.getElem_ofFn, if_neg hother,
        if_neg hother]
    · rw [get_loneLumps, get_loneLumps]
  · rw [(decodes_propMap hshort).transcode_eq true]
    decide +kernel

end GameArchive.Map
