/-
The lumps of records, one by one.

Seventeen lumps hold records that are narrowed. The table here says of each
how long its records are, which of their bytes are left out and which stay,
and which fields are narrowed to how many bytes, signed or not; the layouts
bear the table out by evaluation, and all else is true of any layout. Only
leaves may fail, and only for their version.

Main statement: `treatLump_narrowed`.
-/
import GameArchive.Map.Transcoding
import GameArchive.Proofs.Map.Narrowing

namespace GameArchive.Map

open RecordLayout (Field Shape Narrowed narrowLump_eq narrowLump_narrowed)

-- ============================================================= the table

/-- The lumps of records. -/
def recordLumps : List Nat :=
  [5, 7, 10, 12, 16, 17, 19, 21, 27, 36, 37, 39, 42, 45, 46, 50, 58]

/-- The corners of a box, which begins at these places. -/
def boxFields (source target : Nat) : List Field :=
  [⟨source, target, .i16, "mins"⟩,
    ⟨source + 4, target + 2, .i16, "mins"⟩,
    ⟨source + 8, target + 4, .i16, "mins"⟩,
    ⟨source + 12, target + 6, .i16, "maxs"⟩,
    ⟨source + 16, target + 8, .i16, "maxs"⟩,
    ⟨source + 20, target + 10, .i16, "maxs"⟩]

/-- Nodes: plane and children stay. -/
def nodeShape : Shape where
  source := 48
  target := 32
  gaps := []
  runs := [⟨0, 0, 12⟩]
  fields := boxFields 12 12
    ++ [⟨36, 24, .u16, "firstface"⟩, ⟨40, 26, .u16, "numfaces"⟩,
      ⟨44, 28, .i16, "area"⟩]

/-- Faces: what stays are the two flags, the first edge, all between the fog
volume and the primitives, and the smoothing groups. -/
def faceShape : Shape where
  source := 72
  target := 56
  gaps := [(6, 8)]
  runs := [⟨4, 2, 2⟩, ⟨8, 4, 4⟩, ⟨28, 16, 32⟩, ⟨68, 52, 4⟩]
  fields := [⟨0, 0, .u16, "planenum"⟩, ⟨12, 8, .i16, "numedges"⟩,
    ⟨16, 10, .i16, "texinfo"⟩, ⟨20, 12, .i16, "dispinfo"⟩,
    ⟨24, 14, .i16, "surfaceFogVolumeID"⟩, ⟨60, 48, .u16, "m_NumPrims"⟩,
    ⟨64, 50, .u16, "firstPrimID"⟩]

/-- Leaves: contents and area stay, and the ambient light where there is
any. -/
def leafShape (version : UInt32) : Shape where
  source := if version = 0 then 80 else 56
  target := if version = 0 then 56 else 32
  gaps := [(10, 12)]
  runs := [⟨0, 0, 4⟩, ⟨8, 6, 2⟩]
    ++ if version = 0 then [⟨56, 30, 24⟩] else []
  fields := ⟨4, 4, .i16, "cluster"⟩ :: boxFields 12 8
    ++ [⟨36, 20, .u16, "firstleafface"⟩, ⟨40, 22, .u16, "numleaffaces"⟩,
      ⟨44, 24, .u16, "firstleafbrush"⟩, ⟨48, 26, .u16, "numleafbrushes"⟩,
      ⟨52, 28, .i16, "leafWaterDataID"⟩]

/-- Edges. -/
def edgeShape : Shape :=
  ⟨8, 4, [], [], [⟨0, 0, .u16, "v"⟩, ⟨4, 2, .u16, "v"⟩]⟩

/-- Lists of numbers. -/
def indexShape : Shape := ⟨4, 2, [], [], [⟨0, 0, .u16, "index"⟩]⟩

/-- Sides of brushes: displacement and bevel stay. -/
def brushSideShape : Shape where
  source := 12
  target := 8
  gaps := []
  runs := [⟨8, 4, 4⟩]
  fields := [⟨0, 0, .u16, "planenum"⟩, ⟨4, 2, .i16, "texinfo"⟩]

/-- Area portals: the plane stays. -/
def areaPortalShape : Shape where
  source := 20
  target := 12
  gaps := []
  runs := [⟨16, 8, 4⟩]
  fields := [⟨0, 0, .u16, "m_PortalKey"⟩, ⟨4, 2, .u16, "otherarea"⟩,
    ⟨8, 4, .u16, "m_FirstClipPortalVert"⟩,
    ⟨12, 6, .u16, "m_nClipPortalVerts"⟩]

/-- Water in leaves: both heights stay. -/
def leafWaterShape : Shape :=
  ⟨12, 12, [], [⟨0, 0, 8⟩], [⟨8, 8, .i16, "surfaceTexInfoID"⟩]⟩

/-- Primitives: the type is the only field of one byte. -/
def primitiveShape : Shape where
  source := 20
  target := 10
  gaps := []
  runs := []
  fields := [⟨0, 0, .u8, "type"⟩, ⟨4, 2, .u16, "firstIndex"⟩,
    ⟨8, 4, .u16, "indexCount"⟩, ⟨12, 6, .u16, "firstVert"⟩,
    ⟨16, 8, .u16, "vertCount"⟩]

/-- Cubemap samples: origin and size stay, and no field is narrowed. -/
def cubemapShape : Shape := ⟨164, 16, [(13, 164)], [⟨0, 0, 13⟩], []⟩

/-- Overlays, of which these bytes stay behind the narrowed fields. -/
def overlayShape (rest : Nat) : Shape where
  source := 12 + rest
  target := 8 + rest
  gaps := []
  runs := [⟨0, 0, 4⟩, ⟨12, 8, rest⟩]
  fields := [⟨4, 4, .i16, "nTexInfo"⟩,
    ⟨8, 6, .u16, "m_nFaceCountAndRenderOrder"⟩]

/-- The shape of the records of a lump; that of leaves depends on their
version. -/
def recordShape (id : Nat) (version : UInt32) : Shape :=
  match id with
  | 5 => nodeShape
  | 7 | 27 | 58 => faceShape
  | 10 => leafShape version
  | 12 => edgeShape
  | 16 | 17 | 39 | 46 => indexShape
  | 19 => brushSideShape
  | 21 => areaPortalShape
  | 36 => leafWaterShape
  | 37 => primitiveShape
  | 42 => cubemapShape
  | 45 => overlayShape 344
  | 50 => overlayShape 1112
  | _ => ⟨0, 0, [], [], []⟩

/-- The layout of the records of a lump. -/
def layoutOf (id : Nat) (version : UInt32) : RecordLayout :=
  match Treatment.ofLump id with
  | .narrow layout => layout
  | .leaves => if version = 0 then .litLeaf else .leaf
  | _ => []

/-- The layouts bear the table out, by evaluation. -/
theorem shape_layoutOf {id : Nat} (hid : id ∈ recordLumps)
    (version : UInt32) :
    (layoutOf id version).shape = recordShape id version := by
  simp only [recordLumps, List.mem_cons, List.not_mem_nil, or_false] at hid
  rcases hid with rfl | rfl | rfl | rfl | rfl | rfl | rfl | rfl | rfl
    | rfl | rfl | rfl | rfl | rfl | rfl | rfl | rfl
  case inr.inr.inl =>
      show (if version = 0 then RecordLayout.litLeaf else .leaf).shape
        = leafShape version
      unfold leafShape
      by_cases hversion : version = 0
      · rw [if_pos hversion, if_pos hversion, if_pos hversion,
          if_pos hversion]
        rfl
      · rw [if_neg hversion, if_neg hversion, if_neg hversion,
          if_neg hversion]
        rfl
  all_goals rfl

-- ============================================================= the lumps

variable {id : Nat} (oldBase newBase : Nat) {lump : Lump}

theorem narrowLump_nil (layout : RecordLayout) (id : Nat) :
    layout.narrowLump id [] = pure [] := by
  rw [narrowLump_eq]
  simp only [List.length_nil, Nat.zero_mod, Nat.zero_div]
  rfl

/-- A lump of records is narrowed as its layout says, unless it is one of
leaves in a version of their own. -/
theorem treatLump_eq_narrowLump (hid : id ∈ recordLumps)
    (hknown : id = 10 →
      lump.data = [] ∨ lump.version = 0 ∨ lump.version = 1) :
    treatLump id oldBase newBase lump
      = (layoutOf id lump.version).narrowLump id lump.data := by
  -- Only the layout of leaves depends on the version.
  by_cases hleaves : id = 10
  · subst hleaves
    show narrowLeaves 10 lump
      = (if lump.version = 0 then RecordLayout.litLeaf
          else .leaf).narrowLump 10 lump.data
    unfold narrowLeaves
    by_cases hdata : lump.data = []
    · rw [hdata]
      exact (narrowLump_nil _ 10).symm
    · rw [if_neg (by rw [List.isEmpty_iff]; exact hdata)]
      rcases hknown rfl with hnil | hversion | hversion
      · exact absurd hnil hdata
      · rw [if_pos hversion, if_pos hversion]
      · have hzero : lump.version ≠ 0 := by
          rw [hversion]
          decide
        rw [if_neg hzero, if_pos hversion, if_neg hzero]
  · have hlayout : ∃ layout, Treatment.ofLump id = .narrow layout := by
      simp only [recordLumps, List.mem_cons, List.not_mem_nil, or_false] at hid
      rcases hid with rfl | rfl | rfl | rfl | rfl | rfl | rfl | rfl | rfl
        | rfl | rfl | rfl | rfl | rfl | rfl | rfl | rfl
      case inr.inr.inl => exact absurd rfl hleaves
      all_goals exact ⟨_, rfl⟩
    obtain ⟨layout, hlayout⟩ := hlayout
    unfold treatLump layoutOf
    rw [hlayout]

/-- Leaves of an unknown version are refused, if there are any. -/
theorem treatLump_leaves_unknown (hdata : lump.data ≠ [])
    (hlit : lump.version ≠ 0) (hplain : lump.version ≠ 1) :
    treatLump 10 oldBase newBase lump
      = Reported.fail (.unknownLeafVersion lump.version) := by
  show narrowLeaves 10 lump = _
  unfold narrowLeaves
  rw [if_neg (by rw [List.isEmpty_iff]; exact hdata), if_neg hlit,
    if_neg hplain]

/-- Narrowing a lump of records fails for leaves of an unknown version
only, and loses exactly what it reports. -/
theorem treatLump_narrowed (hid : id ∈ recordLumps) (lump : Lump) :
    ((∃ out, (treatLump id oldBase newBase lump).outcome = .ok out)
        ↔ (id = 10 → lump.data = [] ∨ lump.version = 0 ∨ lump.version = 1))
      ∧ ∀ out, (treatLump id oldBase newBase lump).outcome = .ok out →
        Narrowed id (layoutOf id lump.version) (recordShape id lump.version)
          lump.data out (treatLump id oldBase newBase lump).warnings := by
  have hnarrowed :=
    narrowLump_narrowed (layoutOf id lump.version) id lump.data
  rw [shape_layoutOf hid] at hnarrowed
  obtain ⟨out, hout, hnarrowed⟩ := hnarrowed
  by_cases hknown : id = 10 →
      lump.data = [] ∨ lump.version = 0 ∨ lump.version = 1
  · rw [treatLump_eq_narrowLump oldBase newBase hid hknown]
    refine ⟨⟨fun _ => hknown, fun _ => ⟨out, hout⟩⟩, ?_⟩
    intro out' hout'
    rw [hout] at hout'
    cases hout'
    exact hnarrowed
  · obtain ⟨rfl, hunknown⟩ := Classical.not_imp.mp hknown
    rw [treatLump_leaves_unknown oldBase newBase
      (fun h => hunknown (.inl h)) (fun h => hunknown (.inr (.inl h)))
      (fun h => hunknown (.inr (.inr h)))]
    constructor
    · constructor
      · rintro ⟨out, hout⟩
        cases hout
      · intro h
        exact absurd h hknown
    · intro out hout
      cases hout

/-- Two leaf faces, the second of which loses its high bits. -/
theorem treatLump_narrowed_faces :
    (treatLump 16 0 0 ⟨0, [10, 0, 0, 0, 0x70, 0x11, 1, 0]⟩).outcome
        = .ok [10, 0, 0x70, 0x11]
      ∧ Narrowed 16 .index indexShape [10, 0, 0, 0, 0x70, 0x11, 1, 0]
        [10, 0, 0x70, 0x11] [.overflow (.lump 16) 1 "index" 70000] := by
  have hout : (treatLump 16 0 0
      ⟨0, [10, 0, 0, 0, 0x70, 0x11, 1, 0]⟩).outcome
        = .ok [10, 0, 0x70, 0x11] := rfl
  have hwarnings : (treatLump 16 0 0
      ⟨0, [10, 0, 0, 0, 0x70, 0x11, 1, 0]⟩).warnings
        = [.overflow (.lump 16) 1 "index" 70000] := rfl
  have hnarrowed := (treatLump_narrowed 0 0 (by decide) _).2 _ hout
  rw [hwarnings] at hnarrowed
  exact ⟨hout, hnarrowed⟩

end GameArchive.Map
