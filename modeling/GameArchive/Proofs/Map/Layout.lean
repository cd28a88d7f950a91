/-
Where a transcoded map has its lumps.

Three loops go over the lumps, each with offsets of its own: one decodes,
one treats, one lays out. Each is described by what it does at one
position, and the offset it has reached there by the lumps before that
position, so the three meet at the position and not in their loops. Main
statement: `transcode_layout`.
-/
import GameArchive.Map.Transcoding
import GameArchive.Proofs.Map.Storage

namespace GameArchive.Map

/-- The bytes that lumps take, one after the other. -/
def span (lumps : List Lump) : Nat := (lumps.flatMap Lump.data).length

theorem span_cons (lump : Lump) (rest : List Lump) :
    span (lump :: rest) = lump.data.length + span rest := by
  unfold span
  rw [List.flatMap_cons, List.length_append]

-- ============================================================= decoding

/-- However a lump is stored, its version loses the compression bit. -/
theorem decodeLump_version {file : Bytes} {id : Nat} {h : LumpHeader}
    {lump : Lump} (hlump : decodeLump file id h = .ok lump) :
    lump.version = h.formatVersion := by
  unfold decodeLump at hlump
  split at hlump
  · cases hlump
  split at hlump
  · dsimp only at hlump
    split at hlump
    · obtain ⟨data, -, hdata⟩ := Reported.except_bind_ok hlump
      cases hdata
      rfl
    · cases hlump
  · cases hlump
    rfl

/-- Lumps are decoded one by one, each by its own header. -/
theorem decodeLumps_ok {file : Bytes} {headers : List LumpHeader} :
    ∀ {id : Nat} {lumps : List Lump},
      decodeLumps file id headers = .ok lumps →
      lumps.length = headers.length
      ∧ ∀ {i : Nat} {h : LumpHeader}, headers[i]? = some h →
        ∃ lump, lumps[i]? = some lump
          ∧ decodeLump file (id + i) h = .ok lump := by
  induction headers with
  | nil =>
      intro id lumps hlumps
      cases hlumps
      exact ⟨rfl, fun hi => by cases hi⟩
  | cons first rest ih =>
      intro id lumps hlumps
      obtain ⟨lump, hlump, hlumps⟩ := Reported.except_bind_ok hlumps
      obtain ⟨tail, htail, hlumps⟩ := Reported.except_bind_ok hlumps
      cases hlumps
      obtain ⟨hlength, hrest⟩ := ih htail
      refine ⟨congrArg (· + 1) hlength, ?_⟩
      intro i h hi
      cases i with
      | zero =>
          cases hi
          exact ⟨lump, rfl, hlump⟩
      | succ i =>
          obtain ⟨lump', hi', hlump'⟩ := hrest hi
          refine ⟨lump', hi', ?_⟩
          rw [show id + (i + 1) = id + 1 + i from by omega]
          exact hlump'

-- ============================================================ treatment

/-- The lumps that are more than copied. -/
def treatedLumps : List Nat :=
  [5, 7, 10, 12, 16, 17, 19, 21, 27, 35, 36, 37, 39, 40, 42, 45, 46, 50, 58]

/-- All other lumps are copied. -/
theorem ofLump_eq_copy {id : Nat} (hid : id ∉ treatedLumps) :
    Treatment.ofLump id = .copy := by
  unfold Treatment.ofLump
  split
  any_goals rfl
  all_goals exact absurd (by decide) hid

/-- A lump keeps its version, and is treated with the offsets that the
lumps before it have reached, in the input and in the output. -/
theorem treatLumps_ok {lumps : List Lump} :
    ∀ {id oldBase newBase : Nat} {treated : List Lump},
      (treatLumps id oldBase newBase lumps).outcome = .ok treated →
      treated.length = lumps.length
      ∧ ∀ {i : Nat} {lump : Lump}, lumps[i]? = some lump →
        ∃ data, treated[i]? = some ⟨lump.version, data⟩
          ∧ (treatLump (id + i) (oldBase + span (lumps.take i))
              (newBase + span (treated.take i)) lump).outcome
            = .ok data := by
  induction lumps with
  | nil =>
      intro id oldBase newBase treated htreated
      cases htreated
      exact ⟨rfl, fun hi => by cases hi⟩
  | cons first rest ih =>
      intro id oldBase newBase treated htreated
      obtain ⟨data, hdata, htreated⟩ := Reported.bind_ok htreated
      obtain ⟨tail, htail, htreated⟩ := Reported.bind_ok htreated
      cases htreated
      obtain ⟨hlength, hrest⟩ := ih htail
      refine ⟨congrArg (· + 1) hlength, ?_⟩
      intro i lump hi
      cases i with
      | zero =>
          cases hi
          exact ⟨data, rfl, hdata⟩
      | succ i =>
          obtain ⟨data', hi', hdata'⟩ := hrest hi
          refine ⟨data', hi', ?_⟩
          rw [show id + (i + 1) = id + 1 + i from by omega,
            List.take_succ_cons, List.take_succ_cons, span_cons,
            span_cons, ← Nat.add_assoc, ← Nat.add_assoc]
          exact hdata'

-- ============================================================= assembly

/-- A lump is said to begin where those before it end. -/
theorem directoryFrom_getElem? (lumps : List Lump) :
    ∀ (offset i : Nat), (directoryFrom offset lumps)[i]?
      = lumps[i]?.map fun lump =>
          ⟨UInt32.ofNat (offset + span (lumps.take i)),
            UInt32.ofNat lump.data.length, lump.version, 0⟩ := by
  induction lumps with
  | nil => intro offset i; rfl
  | cons first rest ih =>
      intro offset i
      cases i with
      | zero => rfl
      | succ i =>
          show (directoryFrom (offset + first.data.length) rest)[i]? = _
          rw [ih, List.take_succ_cons, span_cons, ← Nat.add_assoc]
          rfl

/-- The header of a standard map places a lump behind the header and the lumps
before it. -/
theorem standardHeader_lumps (revision : UInt32) {lumps : List Lump}
    {i : Nat} {lump : Lump} (hi : i < 64) (hlump : lumps[i]? = some lump) :
    (standardHeader revision lumps).lumps[i]
      = ⟨UInt32.ofNat (Header.size + span (lumps.take i)),
          UInt32.ofNat lump.data.length, lump.version, 0⟩ := by
  unfold standardHeader
  simp only [Vector.getElem_ofFn]
  rw [List.getD_eq_getElem?_getD, directoryFrom_getElem?, hlump]
  rfl

/-- The contents of 64 lumps follow each other behind a header of a
standard map, which says where. -/
structure LaidOut (out : Bytes) (header : Header)
    (contents : Vector Bytes 64) : Prop where
  parses : Header.parse? out = some header
  headerLength : header.toBytes.length = 1036
  bytes : out = header.toBytes ++ contents.toList.flatten
  ident : header.ident = Header.mapIdent
  version : header.version = 20
  placed : ∀ (id : Nat) (hid : id < 64),
    header.lumps[id].offset
        = UInt32.ofNat (1036 + (contents.toList.take id).flatten.length)
      ∧ header.lumps[id].length = UInt32.ofNat contents[id].length
      ∧ header.lumps[id].decodedSize = 0

/-- The contents of 64 lumps. -/
def bodies (lumps : List Lump) (hlumps : lumps.length = 64) :
    Vector Bytes 64 :=
  ⟨(lumps.map Lump.data).toArray, by
    rw [List.size_toArray, List.length_map, hlumps]⟩

theorem toList_bodies {lumps : List Lump} (hlumps : lumps.length = 64) :
    (bodies lumps hlumps).toList = lumps.map Lump.data := rfl

/-- The bytes of the lumps before one are those of their contents. -/
theorem span_take_bodies {lumps : List Lump} (hlumps : lumps.length = 64)
    (i : Nat) :
    span (lumps.take i)
      = ((bodies lumps hlumps).toList.take i).flatten.length := by
  unfold span
  rw [toList_bodies, ← List.map_take, List.flatMap_def]

theorem getElem_bodies {lumps : List Lump} (hlumps : lumps.length = 64)
    {i : Nat} {lump : Lump} (hi : i < 64) (hlump : lumps[i]? = some lump) :
    (bodies lumps hlumps)[i] = lump.data := by
  have hlist : (bodies lumps hlumps).toList[i]? = some lump.data := by
    rw [toList_bodies, List.getElem?_map, hlump]
    rfl
  rw [Vector.getElem?_toList, Vector.getElem?_eq_getElem hi] at hlist
  exact Option.some.inj hlist

/-- Assembling lumps lays them out as their header says. -/
theorem assemble_laidOut (revision : UInt32) {lumps : List Lump}
    (hlumps : lumps.length = 64) :
    LaidOut (assemble revision lumps) (standardHeader revision lumps)
      (bodies lumps hlumps) where
  parses := Header.parse?_toBytes _ _
  headerLength := Header.length_toBytes _
  bytes := by
    unfold assemble
    rw [toList_bodies, List.flatMap_def]
  ident := rfl
  version := rfl
  placed := by
    intro id hid
    have hlump := List.getElem?_eq_getElem
      (hlumps.symm ▸ hid : id < lumps.length)
    rw [standardHeader_lumps revision hid hlump,
      getElem_bodies hlumps hid hlump, span_take_bodies hlumps]
    exact ⟨rfl, rfl, rfl⟩

/-- What lies before a lump in the file: the header and the lumps before
it. -/
def front (header : Header) (contents : Vector Bytes 64) (id : Nat) : Bytes :=
  header.toBytes ++ (contents.toList.take id).flatten

/-- What lies before a lump is as long as the header and the lumps before it. -/
theorem LaidOut.length_front {out : Bytes} {header : Header}
    {contents : Vector Bytes 64} (h : LaidOut out header contents)
    (id : Nat) :
    (front header contents id).length
      = 1036 + (contents.toList.take id).flatten.length := by
  unfold front
  rw [List.length_append, h.headerLength]

/-- A lump lies between the lumps before it and those behind it. -/
theorem LaidOut.cut {out : Bytes} {header : Header}
    {contents : Vector Bytes 64} (h : LaidOut out header contents)
    {id : Nat} (hid : id < 64) :
    out = front header contents id
      ++ (contents[id] ++ (contents.toList.drop (id + 1)).flatten) := by
  have hlist : id < contents.toList.length := by
    rw [Vector.length_toList]
    exact hid
  have hcut : contents.toList.flatten
      = (contents.toList.take id).flatten ++ (contents[id]
        ++ (contents.toList.drop (id + 1)).flatten) := by
    rw [← List.flatten_cons, ← List.flatten_append]
    congr 1
    rw [← Vector.getElem_toList hlist, ← List.drop_eq_getElem_cons hlist,
      List.take_append_drop]
  rw [h.bytes, hcut]
  exact (List.append_assoc _ _ _).symm

-- A lump ends where the next begins, the last one with the file.
theorem LaidOut.le_length {out : Bytes} {header : Header}
    {contents : Vector Bytes 64} (h : LaidOut out header contents)
    {id : Nat} (hid : id < 64) :
    1036 + (contents.toList.take id).flatten.length + contents[id].length
      ≤ out.length := by
  rw [h.cut hid, List.length_append, h.length_front, List.length_append]
  omega

/-- Offsets and lengths are exact where the whole file is short enough for
them. -/
theorem LaidOut.entry_exact {out : Bytes} {header : Header}
    {contents : Vector Bytes 64} (h : LaidOut out header contents)
    (hout : out.length < 0x100000000) {id : Nat} (hid : id < 64) :
    header.lumps[id].offset.toNat
        = 1036 + (contents.toList.take id).flatten.length
      ∧ header.lumps[id].length.toNat = contents[id].length := by
  have hle := h.le_length hid
  have hsize : UInt32.size = 0x100000000 := rfl
  obtain ⟨hoffset, hlength, -⟩ := h.placed id hid
  rw [hoffset, hlength]
  constructor
  · exact UInt32.toNat_ofNat_of_lt' (by omega)
  · exact UInt32.toNat_ofNat_of_lt' (by omega)

-- ========================================================== transcoding

/-- The header of a vendor map is one that can be read. -/
theorem vendorHeader_parses {data : Bytes} {header : Header}
    (h : vendorHeader data = .ok header) :
    Header.parse? data = some header := by
  unfold vendorHeader Header.parse at h
  split at h
  · split at h
    · cases h
      assumption
    · cases h
  · split at h
    · cases h
    · cases h

/-- A map is transcoded in three steps, and fails if one of them does. -/
theorem transcode_ok {fix : Bool} {data out : Bytes} (hdata : data ≠ [])
    (h : (transcode fix data).outcome = .ok out) :
    ∃ header lumps treated,
      vendorHeader data = .ok header
      ∧ decodeLumps data 0 header.lumps.toList = .ok lumps
      ∧ (if fix then treatLumps 0 Header.size Header.size lumps
          else pure lumps).outcome = .ok treated
      ∧ out = assemble header.revision treated := by
  unfold transcode at h
  rw [if_neg (by rw [List.isEmpty_iff]; exact hdata)] at h
  obtain ⟨header, hheader, h⟩ := Reported.bind_ok h
  obtain ⟨lumps, hlumps, h⟩ := Reported.bind_ok h
  cases fix with
  | false =>
      cases h
      exact ⟨header, lumps, lumps, hheader, hlumps, rfl, rfl⟩
  | true =>
      obtain ⟨treated, htreated, h⟩ := Reported.bind_ok h
      cases h
      exact ⟨header, lumps, treated, hheader, hlumps, htreated, rfl⟩

/-- Whether it is treated or only decoded, a lump keeps its version, and
its contents where they are copied. -/
theorem treated_lumps {fix : Bool} {lumps treated : List Lump}
    (h : (if fix then treatLumps 0 Header.size Header.size lumps
      else pure lumps).outcome = .ok treated) :
    treated.length = lumps.length
      ∧ ∀ {id : Nat} {lump : Lump}, lumps[id]? = some lump →
        ∃ data, treated[id]? = some ⟨lump.version, data⟩
          ∧ (fix = false ∨ id ∉ treatedLumps → data = lump.data) := by
  cases fix with
  | false =>
      cases h
      exact ⟨rfl, fun {_ lump} hlump => ⟨lump.data, hlump, fun _ => rfl⟩⟩
  | true =>
      obtain ⟨hlength, htreated⟩ := treatLumps_ok h
      refine ⟨hlength, ?_⟩
      intro id lump hlump
      obtain ⟨data, hdata, houtcome⟩ := htreated hlump
      refine ⟨data, hdata, ?_⟩
      rintro (hfix | hid)
      · cases hfix
      · rw [Nat.zero_add, treatLump, ofLump_eq_copy hid] at houtcome
        cases houtcome
        rfl

/-- The lumps of a fixed map are what their treatment makes of the decoded
lumps, at the places that they then have in the file. -/
theorem transcode_decodes {data out : Bytes} (hdata : data ≠ [])
    (hout : (transcode true data).outcome = .ok out) :
    ∃ (source target : Header) (lumps : Vector Lump 64)
        (contents : Vector Bytes 64),
      Decodes data source lumps
      ∧ LaidOut out target contents
      ∧ ∀ (id : Nat) (hid : id < 64),
        (treatLump id (1036 + span (lumps.toList.take id))
            (front target contents id).length lumps[id]).outcome
          = .ok contents[id] := by
  obtain ⟨source, lumps, treated, hsource, hlumps, htreated, rfl⟩ :=
    transcode_ok hdata hout
  obtain ⟨hlength, hdecoded⟩ := decodeLumps_ok hlumps
  rw [Vector.length_toList] at hlength
  obtain ⟨hcount, htreat⟩ := treatLumps_ok htreated
  rw [hlength] at hcount
  have hlaid := assemble_laidOut source.revision hcount
  refine ⟨source, standardHeader source.revision treated,
    ⟨lumps.toArray, hlength⟩, bodies treated hcount, ⟨hsource, ?_⟩, hlaid,
    ?_⟩
  · intro id hid
    obtain ⟨lump, hlump, hdecode⟩ := hdecoded
      (show source.lumps.toList[id]? = some source.lumps[id] by
        rw [Vector.getElem?_toList, Vector.getElem?_eq_getElem hid])
    obtain ⟨hlist, rfl⟩ := List.getElem?_eq_some_iff.mp hlump
    rw [Nat.zero_add] at hdecode
    exact hdecode
  · intro id hid
    have hlist : id < lumps.length := hlength.symm ▸ hid
    obtain ⟨data', hdata', houtcome⟩ :=
      htreat (List.getElem?_eq_getElem hlist)
    rw [Nat.zero_add] at houtcome
    rw [hlaid.length_front, ← span_take_bodies hcount,
      getElem_bodies hcount hid hdata']
    exact houtcome

/-- Each lump of a fixed map is what its treatment makes of the decoded
lump, at the place that it then has in the file. -/
theorem transcode_treated {data out : Bytes} (hdata : data ≠ [])
    (hout : (transcode true data).outcome = .ok out) :
    ∃ (source target : Header) (contents : Vector Bytes 64)
        (lumps : List Lump),
      Header.parse? data = some source
      ∧ LaidOut out target contents
      ∧ ∀ (id : Nat) (hid : id < 64), ∃ lump, lumps[id]? = some lump
        ∧ decodeLump data id source.lumps[id] = .ok lump
        ∧ (treatLump id (1036 + span (lumps.take id))
            (front target contents id).length lump).outcome
          = .ok contents[id] := by
  obtain ⟨source, target, lumps, contents, hdecodes, hlaid, htreated⟩ :=
    transcode_decodes hdata hout
  refine ⟨source, target, contents, lumps.toList,
    vendorHeader_parses hdecodes.vendor, hlaid, fun id hid => ?_⟩
  refine ⟨lumps[id], ?_, hdecodes.lump id hid, htreated id hid⟩
  rw [Vector.getElem?_toList, Vector.getElem?_eq_getElem hid]

/-- A transcoded map keeps the lumps of its source in their order, with
their revision and versions, and without gaps; what is not treated is kept
byte for byte. -/
theorem transcode_layout {fix : Bool} {data out : Bytes} (hdata : data ≠ [])
    (hout : (transcode fix data).outcome = .ok out) :
    ∃ (source target : Header) (contents : Vector Bytes 64),
      Header.parse? data = some source
      ∧ LaidOut out target contents
      ∧ target.revision = source.revision
      ∧ ∀ (id : Nat) (hid : id < 64),
        target.lumps[id].version = source.lumps[id].version &&& ~~~0x10000
        ∧ (out.length < 0x100000000 →
            target.lumps[id].offset.toNat
              = 1036 + (contents.toList.take id).flatten.length
            ∧ target.lumps[id].length.toNat = contents[id].length)
        ∧ (fix = false ∨ id ∉ treatedLumps →
            decodeLump data id source.lumps[id]
              = .ok ⟨source.lumps[id].version &&& ~~~0x10000,
                  contents[id]⟩) := by
  obtain ⟨source, lumps, treated, hsource, hlumps, htreated, rfl⟩ :=
    transcode_ok hdata hout
  obtain ⟨hlength, hdecoded⟩ := decodeLumps_ok hlumps
  rw [Vector.length_toList] at hlength
  obtain ⟨hcount, htreat⟩ := treated_lumps htreated
  rw [hlength] at hcount
  have hlaid := assemble_laidOut source.revision hcount
  refine ⟨source, standardHeader source.revision treated,
    bodies treated hcount, vendorHeader_parses hsource, hlaid, rfl, ?_⟩
  -- Lump by lump: decoded, treated, and laid out under its own number.
  intro id hid
  obtain ⟨lump, hlump, hdecode⟩ := hdecoded
    (show source.lumps.toList[id]? = some source.lumps[id] by
      rw [Vector.getElem?_toList, Vector.getElem?_eq_getElem hid])
  rw [Nat.zero_add] at hdecode
  obtain ⟨data', hdata', hcopied⟩ := htreat hlump
  have hversion : lump.version = source.lumps[id].version &&& ~~~0x10000 :=
    decodeLump_version hdecode
  refine ⟨?_, fun hshort => hlaid.entry_exact hshort hid, ?_⟩
  · rw [standardHeader_lumps _ hid hdata']
    exact hversion
  · intro hcopy
    rw [hdecode, getElem_bodies hcount hid hdata', hcopied hcopy, ← hversion]

/-- The layout of a map of two leaf faces, which become half as long. -/
theorem transcode_layout_faces :
    ∃ out, (transcode true facesMap).outcome = .ok out
      ∧ out.length = 1040
      ∧ ∃ (source target : Header) (contents : Vector Bytes 64),
        LaidOut out target contents
        ∧ target.revision = source.revision
        ∧ target.lumps[17].version
          = source.lumps[17].version &&& ~~~0x10000
        ∧ target.lumps[17].offset.toNat
          = 1036 + (contents.toList.take 17).flatten.length
        ∧ decodeLump facesMap 0 source.lumps[0]
          = .ok ⟨source.lumps[0].version &&& ~~~0x10000, contents[0]⟩ := by
  obtain ⟨out, hout, hshort⟩ := transcode_facesMap
  obtain ⟨source, target, contents, -, hlaid, hrevision, hlumps⟩ :=
    transcode_layout (loneMap_ne_nil _ _ _) hout
  obtain ⟨hversion, hexact, -⟩ := hlumps 17 (by decide)
  obtain ⟨-, -, hcopied⟩ := hlumps 0 (by decide)
  exact ⟨out, hout, hshort, source, target, contents, hlaid, hrevision,
    hversion, (hexact (by omega)).1, hcopied (.inr (by decide))⟩

end GameArchive.Map
