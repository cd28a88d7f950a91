/-
Nothing is written outside the output folder.

The path of an entry can be anything that a container says, and unwrapping
can change it again: a file name "...e" loses its marker and becomes "..".
So the path is looked at last, when nothing will change it any more. What
passes is a list of plain names, and these lead from the output folder
down, whatever folders there are. One item thus changes only what is below
the output folder, apart from folders that it makes on the way there, and a
run does no more than its items.

Main statement: `extraction_confined`.
-/
import GameArchive.Proofs.Extraction.Turns
import GameArchive.Proofs.FileSystem.Changes
import GameArchive.Proofs.Reported
import GameArchive.Proofs.Text.Parts

namespace GameArchive.Extraction

open FileSystem (ChangesOnly lead)
open Package (Container Entry Error NamedFile)

-- =============================================================== names

/-- A name that leads from a folder to something in this folder. -/
structure IsPlainName (name : String) : Prop where
  notEmpty : name ≠ ""
  notHere : name ≠ "."
  notUp : name ≠ ".."
  noSlash : '/' ∉ name.toList
  noBackslash : '\\' ∉ name.toList

/-- A path that has ".." as one of its components, between slashes of
either kind or the ends of the path. -/
def Climbs (path : String) : Prop :=
  ∃ before after, path.toList = before ++ ('.' :: '.' :: after)
    ∧ (∀ d ∈ before.getLast?, isDivider d = true)
    ∧ ∀ d ∈ after.head?, isDivider d = true

/-- A path climbs exactly if one of its components is "..". -/
theorem up_mem_components_iff (path : String) :
    ".." ∈ components path ↔ Climbs path := by
  have hup : ".." ∈ components path
      ↔ ['.', '.'] ∈ Text.parts isDivider path.toList := by
    unfold components
    constructor
    · intro hmem
      obtain ⟨part, hpart, hname⟩ := List.mem_map.mp hmem
      rwa [← String.toList_ofList (l := part), hname] at hpart
    · intro hmem
      exact List.mem_map.mpr ⟨_, hmem, rfl⟩
  rw [hup, Text.mem_parts_iff]
  constructor
  · rintro ⟨-, before, after, htext, hbefore, hafter⟩
    exact ⟨before, after, htext, hbefore, hafter⟩
  · rintro ⟨before, after, htext, hbefore, hafter⟩
    exact ⟨by simp [isDivider], before, after, htext, hbefore, hafter⟩

theorem target_of_climbs {path : String} (h : Climbs path) :
    target path = .error (.escapingPath path) := by
  unfold target
  rw [if_pos]
  rw [List.contains_iff_mem]
  exact (up_mem_components_iff path).mpr h

/-- Taking the marker from a name can make it climb. -/
example : target (Package.Wrapper.unmarkedPath "cfg/...e")
    = .error (.escapingPath "cfg/..") := rfl

/-- What a path is taken for are plain names. -/
theorem isPlainName_of_target {path : String} {names : Location}
    (h : target path = .ok names) : ∀ name ∈ names, IsPlainName name := by
  unfold target at h
  split at h
  · cases h
  · rename_i hup
    cases h
    intro name hmem
    obtain ⟨hcomponent, hidle⟩ := List.mem_filter.mp hmem
    have hnames : name ≠ "" ∧ name ≠ "." := by
      simpa [PathName.isIdle] using hidle
    have hdividers : ∀ c ∈ name.toList, isDivider c = false := by
      obtain ⟨part, hpart, rfl⟩ := List.mem_map.mp hcomponent
      rw [String.toList_ofList]
      exact Text.mem_parts isDivider path.toList part hpart
    constructor
    case notEmpty => exact hnames.1
    case notHere => exact hnames.2
    case notUp =>
        rintro rfl
        rw [List.contains_iff_mem] at hup
        exact hup hcomponent
    case noSlash =>
        intro hslash
        cases hdividers '/' hslash
    case noBackslash =>
        intro hslash
        cases hdividers '\\' hslash

/-- Plain names lead down. -/
theorem lead_plain (here : Location) {names : Location}
    (h : ∀ name ∈ names, IsPlainName name) :
    lead here names = here ++ names := by
  induction names generalizing here with
  | nil => exact (List.append_nil here).symm
  | cons name names ih =>
      have hplain := h name List.mem_cons_self
      have hstep : FileSystem.follow here name = here ++ [name] := by
        unfold FileSystem.follow PathName.isIdle
        rw [if_neg (by simp [hplain.notEmpty, hplain.notHere]),
          if_neg hplain.notUp]
      show lead (FileSystem.follow here name) names = _
      rw [hstep, ih _ fun n hn => h n (List.mem_cons_of_mem name hn)]
      simp

-- ========================================================= the output root

namespace Extractor

variable (x : Extractor) (files : FileSystem)

/-- Where the output folder is. -/
def root : Location := lead (files.start x.output) x.output.pieces

/-- What is reached from the output folder by plain names. -/
def Below (place : Location) : Prop :=
  ∃ names, (∀ name ∈ names, IsPlainName name)
    ∧ place = x.root files ++ names

/-- What lies on the way to the output folder. -/
def OnTheWay (place : Location) : Prop :=
  ∃ front, front <+: x.output.pieces
    ∧ place = lead (files.start x.output) front

/-- What a session may have done to files: paths of plain names are
written, files are new or changed only below the output folder, and nothing
else is changed but for new folders on the way to it. -/
structure Confined (s : Session) : Prop where
  written : ∀ location ∈ s.report.written,
    ∀ name ∈ location, IsPlainName name
  created : ∀ place data, s.files.node? place = some (.file data) →
    files.node? place ≠ some (.file data) → x.Below files place
  changes : ChangesOnly (x.Below files) (x.OnTheWay files) files s.files

variable {x files}

/-- What is said of new files follows from what is said of changes, so it is not
shown again. -/
theorem Confined.of_changes {s : Session}
    (hwritten : ∀ location ∈ s.report.written,
      ∀ name ∈ location, IsPlainName name)
    (hchanges : ChangesOnly (x.Below files) (x.OnTheWay files) files
      s.files) : x.Confined files s :=
  ⟨hwritten, fun _ _ => hchanges.written_of_file, hchanges⟩

/-- Going down from the output does not change where it starts from. -/
theorem start_below (names : Location) :
    files.start (x.output.below names) = files.start x.output := by
  unfold FileSystem.start
  rw [(x.output.below_pieces names).1]

theorem lead_below {names : Location}
    (h : ∀ name ∈ names, IsPlainName name) :
    lead (files.start (x.output.below names)) (x.output.below names).pieces
      = x.root files ++ names := by
  obtain ⟨-, front, -, hfront, hpieces⟩ := x.output.below_pieces names
  rw [start_below, hpieces, FileSystem.lead_append, hfront,
    lead_plain _ h]
  rfl

/-- Every folder on the way to a place below the output folder is below it
or on the way to it. -/
theorem below_or_onTheWay {names front : Location}
    (h : ∀ name ∈ names, IsPlainName name)
    (hfront : front <+: (x.output.below names).pieces) :
    x.Below files (lead (files.start (x.output.below names)) front)
      ∨ x.OnTheWay files
          (lead (files.start (x.output.below names)) front) := by
  obtain ⟨-, base, hbase, hlead, hpieces⟩ := x.output.below_pieces names
  rw [hpieces] at hfront
  rw [start_below]
  rcases List.prefix_or_prefix_of_prefix hfront
    (List.prefix_append base names) with hway | ⟨tail, rfl⟩
  · exact .inr ⟨front, hway.trans hbase, rfl⟩
  · have htail : tail <+: names := (List.prefix_append_right_inj base).mp hfront
    have hplain : ∀ name ∈ tail, IsPlainName name :=
      fun name hname => h name (htail.subset hname)
    refine .inl ⟨tail, hplain, ?_⟩
    rw [FileSystem.lead_append, hlead, lead_plain _ hplain]
    rfl

-- ============================================================== one item

variable {c : Container} {found : Except Error Entry}

/-- An item that is ready to be written has a place of plain names. -/
theorem prepare_ok {location : Location} {data : Bytes}
    (h : x.prepare c found = .ok (location, data)) :
    ∀ name ∈ location, IsPlainName name := by
  obtain ⟨entry, -, h⟩ := Reported.except_bind_ok h
  obtain ⟨contents, -, h⟩ := Reported.except_bind_ok h
  obtain ⟨result, -, h⟩ := Reported.except_bind_ok h
  obtain ⟨place, htarget, h⟩ := Reported.except_bind_ok h
  cases h
  exact isPlainName_of_target htarget

/-- An item that is written has a path of plain names, and is a file below
the output folder. -/
theorem extractEntry_ok {location : Location} {after : FileSystem}
    (h : x.extractEntry files c found = (.ok location, after)) :
    (∀ name ∈ location, IsPlainName name)
      ∧ ∃ data, after.node? (x.root files ++ location)
        = some (.file data) := by
  unfold extractEntry at h
  cases hprepared : x.prepare (c.refresh files) found with
  | error cause =>
      rw [hprepared] at h
      cases h
  | ok prepared =>
      obtain ⟨place, data⟩ := prepared
      have hplain := prepare_ok hprepared
      rw [hprepared] at h
      dsimp only at h
      rcases hsaved : files.save (x.output.below place) data
        with ⟨_ | _, saved⟩
      case error fault =>
          rw [hsaved] at h
          cases h
      case ok =>
          rw [hsaved] at h
          cases h
          refine ⟨hplain, data, ?_⟩
          rw [← lead_below hplain]
          exact FileSystem.node?_of_save hsaved

/-- An item changes nothing but what is below the output folder, and makes
folders on the way. -/
theorem extractEntry_changesOnly {start : FileSystem}
    (hstart : files.workingFolder = start.workingFolder) :
    ChangesOnly (x.Below start) (x.OnTheWay start) files
      (x.extractEntry files c found).2 := by
  unfold extractEntry
  cases hprepared : x.prepare (c.refresh files) found with
  | error cause => exact .refl
  | ok prepared =>
      obtain ⟨location, data⟩ := prepared
      have hplain := prepare_ok hprepared
      have hsaved : ChangesOnly (x.Below start) (x.OnTheWay start) files
          (files.save (x.output.below location) data).2 := by
        apply FileSystem.save_changesOnly
        · rw [FileSystem.start_eq hstart, lead_below hplain]
          exact ⟨location, hplain, rfl⟩
        · intro front hfront
          rw [FileSystem.start_eq hstart]
          exact below_or_onTheWay hplain hfront
      dsimp only
      rcases houtcome : files.save (x.output.below location) data
        with ⟨_ | _, after⟩ <;>
        · rw [houtcome] at hsaved
          exact hsaved

/-- An entry whose final path climbs is not written. -/
theorem extractEntry_climbs {entry : Entry} {data : Bytes}
    {result : NamedFile}
    (hread : ((c.refresh files).readEntry entry).outcome = .ok data)
    (hresult : (NamedFile.transcode x.options
      ⟨entry.path, data⟩).outcome = .ok result)
    (hclimbs : Climbs result.path) :
    x.extractEntry files c (.ok entry)
      = (.error (.escapingPath result.path), files) := by
  have hprepared : x.prepare (c.refresh files) (.ok entry)
      = .error (.escapingPath result.path) := by
    unfold prepare
    simp only [bind, Except.bind, hread, hresult, target_of_climbs hclimbs]
  unfold extractEntry
  rw [hprepared]

end Extractor

-- ============================================================= the turns

/-- What a turn may have done since a file system in the beginning. -/
def Turn.Confined (x : Extractor) (start : FileSystem) : Turn → Prop
  | .item _ result files =>
    ChangesOnly (x.Below start) (x.OnTheWay start) start files
      ∧ ∀ location, result = .ok location →
        ∀ name ∈ location, IsPlainName name
  | _ => True

variable {x : Extractor} {start files : FileSystem}

/-- Turns that are confined change nothing elsewhere, one after the other. -/
theorem foldl_after_changesOnly {turns : List Turn}
    (hturns : ∀ turn ∈ turns, turn.Confined x start)
    (hfiles : ChangesOnly (x.Below start) (x.OnTheWay start) start files) :
    ChangesOnly (x.Below start) (x.OnTheWay start) start
      (turns.foldl Turn.after files) := by
  induction turns generalizing files with
  | nil => exact hfiles
  | cons turn turns ih =>
      apply ih fun t ht => hturns t (List.mem_cons_of_mem turn ht)
      have hturn := hturns turn List.mem_cons_self
      cases turn with
      | opened => exact hfiles
      | refused => exact hfiles
      | item path result after => exact hturn.1

/-- Items of a container are confined, whatever was changed below the output
before. -/
theorem itemTurns_confined {c : Container} {items : List Order.Item}
    (hfiles : ChangesOnly (x.Below start) (x.OnTheWay start) start files) :
    ∀ turn ∈ x.itemTurns c files items, turn.Confined x start := by
  induction items generalizing files with
  | nil => intro turn hturn; cases hturn
  | cons item items ih =>
      have hitem : ChangesOnly (x.Below start) (x.OnTheWay start) files
          (x.extractEntry files c item.entry).2 :=
        Extractor.extractEntry_changesOnly hfiles.workingFolder
      have hafter := hfiles.trans hitem
      intro turn hturn
      rcases List.mem_cons.mp hturn with rfl | hlater
      · refine ⟨hafter, fun location hlocation => ?_⟩
        exact (Extractor.extractEntry_ok (Prod.ext hlocation rfl)).1
      · exact ih hafter turn hlater

theorem turns_confined {total : Nat} {orders : List Order}
    (hfiles : ChangesOnly (x.Below start) (x.OnTheWay start) start files) :
    ∀ turn ∈ x.turns total files orders, turn.Confined x start := by
  induction orders generalizing total files with
  | nil => intro turn hturn; cases hturn
  | cons order orders ih =>
      have hhere : ∀ turn ∈ x.orderTurns total files order,
          turn.Confined x start := by
        unfold Extractor.orderTurns
        cases x.source files order.container with
        | error cause => simp [Turn.Confined]
        | ok c =>
            intro turn hturn
            rcases List.mem_cons.mp hturn with rfl | hitem
            · trivial
            · exact itemTurns_confined hfiles turn hitem
      intro turn hturn
      rcases List.mem_append.mp hturn with hnow | hlater
      · exact hhere turn hnow
      · exact ih (foldl_after_changesOnly hhere hfiles) turn hlater

/-- No run writes outside the output folder, however it ends. -/
theorem run_confined (x : Extractor) (watch : Watcher) (total : Nat)
    (orders : List Order) (files : FileSystem) (status : Status) :
    x.Confined files (x.run watch total orders files status).1 := by
  have hturns : ∀ turn ∈ x.turns total files orders,
      turn.Confined x files := turns_confined .refl
  rw [x.run_eq_play]
  apply play_keeps
  · rintro turn hturn s hs
    have hconfined := hturns turn hturn
    refine .of_changes (s := turn.begun watch s) hs.written ?_
    cases turn with
    | opened => exact hs.changes
    | refused => exact hs.changes
    | item path result after => exact hconfined.1
  · rintro turn hturn s hs
    have hconfined := hturns turn hturn
    apply Extractor.Confined.of_changes
    · rcases turn with ⟨_, _ | _⟩ | _ | ⟨_, _ | location, _⟩
      case item.ok =>
          intro place hplace
          rcases List.mem_append.mp hplace with hold | hnew
          · exact hs.written place hold
          · rw [List.mem_singleton.mp hnew]
            exact hconfined.2 location rfl
      all_goals exact hs.written
    · rw [Turn.files_noted]
      exact hs.changes
  · exact .of_changes (by simp [Session.beginning]) .refl

/-- Neither kind of extraction writes outside the output folder. One item
changes only what is below that folder, and is a file there if it was
written; if its final path climbs, it changes nothing, and fails. -/
theorem extraction_confined (x : Extractor) (watch : Watcher)
    (files : FileSystem) (status : Status) :
    (∀ requests, x.Confined files
        (x.extract watch requests files status).1)
      ∧ (∀ names, x.Confined files
        (x.extractContainers watch names files status).1)
      ∧ (∀ now c found,
        ChangesOnly (x.Below now) (x.OnTheWay now) now
            (x.extractEntry now c found).2
          ∧ ∀ location, (x.extractEntry now c found).1 = .ok location →
            (∀ name ∈ location, IsPlainName name)
              ∧ ∃ data, (x.extractEntry now c found).2.node?
                (x.root now ++ location) = some (.file data))
      ∧ ∀ (s : Session) (c : Container) (path : String) (entry : Entry)
          (data : Bytes) (result : NamedFile) (rest : List Order.Item),
        ((c.refresh s.files).readEntry entry).outcome = .ok data →
        (NamedFile.transcode x.options
          ⟨entry.path, data⟩).outcome = .ok result →
        Climbs result.path →
        s.status.stopRequested = false →
          x.extractEntry s.files c (.ok entry)
              = (.error (.escapingPath result.path), s.files)
            ∧ x.runItems watch c (⟨path, .ok entry⟩ :: rest) s
              = if x.options.strict then
                  (s.emit watch (.item path),
                    .failed (.escapingPath result.path))
                else
                  x.runItems watch c rest
                    (((s.emit watch (.item path)).failed path
                      (.escapingPath result.path)).advance watch 1) := by
  refine ⟨fun requests => ?_, fun names => ?_, fun now c found => ?_, ?_⟩
  · exact run_confined x watch _ _ files status
  · exact run_confined x watch _ _ files status
  · refine ⟨Extractor.extractEntry_changesOnly rfl, fun location h => ?_⟩
    exact Extractor.extractEntry_ok (Prod.ext h rfl)
  · intro s c path entry data result rest hread hresult hclimbs hstop
    have hfailed :=
      Extractor.extractEntry_climbs hread hresult hclimbs
    exact ⟨hfailed, x.runItems_of_error watch hstop hfailed⟩

/-- An entry whose path climbs is refused by a tolerant run, and changes
nothing. -/
theorem extraction_confined_climbing :
    let x : Extractor :=
      ⟨fun _ _ => .error (.file .missing), ⟨false, ["out"]⟩, {}⟩
    let entry : Entry := ⟨"a/../../one", 0, 2, 2, false, by decide⟩
    let c : Container := ⟨"pack", .nexon, "", [entry], 2, [7, 8], none⟩
    let s : Session := ⟨.empty "home", {}, [], {}⟩
    x.extractEntry s.files c (.ok entry)
        = (.error (.escapingPath entry.path), s.files)
      ∧ x.runItems .silent c [⟨entry.path, .ok entry⟩] s
        = (((s.emit .silent (.item entry.path)).failed entry.path
          (.escapingPath entry.path)).advance .silent 1, .finished) := by
  intro x entry c s
  have hread : ((c.refresh s.files).readEntry entry).outcome
      = .ok [7, 8] := rfl
  have hresult : (NamedFile.transcode x.options
      ⟨entry.path, [7, 8]⟩).outcome = .ok ⟨entry.path, [7, 8]⟩ := rfl
  have hclimbs : Climbs entry.path := by
    refine ⟨['a', '/'], ['/', '.', '.', '/', 'o', 'n', 'e'],
      by decide, ?_, ?_⟩
    · simp [isDivider]
    · simp [isDivider]
  obtain ⟨-, -, -, hclimbing⟩ :=
    extraction_confined x .silent s.files s.status
  exact hclimbing s c entry.path entry [7, 8] _ [] hread hresult hclimbs rfl

end GameArchive.Extraction
