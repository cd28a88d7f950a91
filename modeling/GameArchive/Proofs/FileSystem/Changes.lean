/-
Where writing changes a file system.

There are no links, so a path name that can be resolved leads where its
text says, whatever folders there are: `lead` follows the pieces without
looking at the nodes. What a write or the making of folders changes is
therefore told by the path name alone. A write changes the node at the end
of the way; folders are made on the way, and only where there was nothing.

`ChangesOnly` states both kinds of changes between two file systems. It is
reflexive and transitive, so it holds of a whole run if it holds of every
step.

Main statement: `save_changesOnly`.
-/
import GameArchive.FileSystem

namespace GameArchive

namespace FileSystem

-- ============================================================== resolving

/-- Where a piece leads by its text. -/
def follow (here : Location) (piece : String) : Location :=
  if PathName.isIdle piece then here
  else if piece = ".." then here.dropLast
  else here ++ [piece]

/-- Where pieces lead by their text. -/
def lead (here : Location) (pieces : List String) : Location :=
  pieces.foldl follow here

theorem lead_append (here : Location) (front back : List String) :
    lead here (front ++ back) = lead (lead here front) back :=
  List.foldl_append

variable {fs : FileSystem} {here there : Location}

/-- Entering a folder leads where its name says. -/
theorem enter_ok {piece : String} (h : fs.enter here piece = .ok there) :
    there = follow here piece := by
  unfold enter at h
  unfold follow
  split at h
  · cases h
  · cases h
  · by_cases hidle : PathName.isIdle piece = true
    · rw [if_pos hidle] at h ⊢
      cases h
      rfl
    · rw [if_neg hidle] at h ⊢
      by_cases hup : piece = ".."
      · rw [if_pos hup] at h ⊢
        cases h
        rfl
      · rw [if_neg hup] at h ⊢
        split at h
        · cases h
          rfl
        · cases h

theorem walk_ok {pieces : List String}
    (h : fs.walk here pieces = .ok there) : there = lead here pieces := by
  induction pieces generalizing here with
  | nil =>
      cases h
      rfl
  | cons piece rest ih =>
      unfold walk at h
      split at h
      · cases h
      · rename_i next hnext
        rw [ih h, enter_ok hnext]
        rfl

/-- What is found at a path is where its text leads. -/
theorem locate_ok {path : PathName} (h : fs.locate path = .ok there) :
    there = lead (fs.start path) path.pieces := by
  unfold locate at h
  split at h
  · cases h
  · split at h
    · exact walk_ok h
    · cases h

end FileSystem

-- ============================================================ path names

namespace PathName

/-- Idle pieces are only dropped at the end. -/
theorem dropIdle_start (pieces : List String) :
    dropIdle pieces <+: pieces := by
  unfold dropIdle
  have hsuffix := List.dropWhile_suffix isIdle (l := pieces.reverse)
  rw [← List.reverse_prefix, List.reverse_reverse] at hsuffix
  exact hsuffix

/-- A trimmed path is a beginning of the path. -/
theorem trimmed_start (p : PathName) :
    p.trimmed.absolute = p.absolute ∧ p.trimmed.pieces <+: p.pieces := by
  unfold trimmed
  split
  · rename_i rest habsolute hpieces
    rw [habsolute, hpieces]
    exact ⟨rfl, List.prefix_cons_inj "." |>.mpr (dropIdle_start rest)⟩
  · exact ⟨rfl, dropIdle_start p.pieces⟩

/-- The way to the parent is a beginning of the way. -/
theorem parent?_start {p parent : PathName} (h : p.parent? = some parent) :
    parent.absolute = p.absolute ∧ parent.pieces <+: p.pieces := by
  obtain ⟨habsolute, hpieces⟩ := p.trimmed_start
  unfold parent? at h
  dsimp only at h
  split at h
  · cases h
  · cases h
    obtain ⟨habsolute', hpieces'⟩ :=
      trimmed_start ⟨p.trimmed.absolute, p.trimmed.pieces.dropLast⟩
    have hlast := List.dropLast_prefix p.trimmed.pieces
    exact ⟨habsolute'.trans habsolute,
      (hpieces'.trans hlast).trans hpieces⟩

/-- Further components come behind pieces that lead to the same place. -/
theorem below_pieces (p : PathName) (components : List String) :
    (p.below components).absolute = p.absolute
      ∧ ∃ front, front <+: p.pieces
        ∧ (∀ here, FileSystem.lead here front
          = FileSystem.lead here p.pieces)
        ∧ (p.below components).pieces = front ++ components := by
  unfold below join
  rw [if_neg Bool.false_ne_true]
  dsimp only
  by_cases hnone : components.isEmpty = true
  · rw [if_pos hnone, List.isEmpty_iff.mp hnone]
    exact ⟨rfl, p.pieces, List.prefix_refl _, fun _ => rfl,
      (List.append_nil _).symm⟩
  · rw [if_neg hnone]
    by_cases hlast : p.pieces.getLast? = some ""
    · rw [if_pos hlast]
      refine ⟨rfl, p.pieces.dropLast, List.dropLast_prefix _, ?_, rfl⟩
      intro here
      obtain ⟨front, hfront⟩ := List.getLast?_eq_some_iff.mp hlast
      rw [hfront, List.dropLast_concat, FileSystem.lead_append]
      rfl
    · rw [if_neg hlast]
      exact ⟨rfl, p.pieces, List.prefix_refl _, fun _ => rfl, rfl⟩

end PathName

namespace FileSystem

-- =============================================================== changes

/-- From one file system to the other, anything may become of a node that
is `written`, one that is `passed` may be a new folder, and all else is
kept. -/
structure ChangesOnly (written passed : Location → Prop)
    (before after : FileSystem) : Prop where
  workingFolder : after.workingFolder = before.workingFolder
  kept : ∀ place, ¬ written place →
    after.node? place = before.node? place
      ∨ (passed place ∧ before.node? place = none
        ∧ after.node? place = some .folder)

namespace ChangesOnly

variable {written passed : Location → Prop} {a b c : FileSystem}

theorem refl : ChangesOnly written passed a a :=
  ⟨rfl, fun _ _ => .inl rfl⟩

/-- Changes that stay within bounds one after the other stay within them
together. -/
theorem trans (hab : ChangesOnly written passed a b)
    (hbc : ChangesOnly written passed b c) :
    ChangesOnly written passed a c := by
  refine ⟨hbc.workingFolder.trans hab.workingFolder, ?_⟩
  intro place hplace
  rcases hab.kept place hplace with hsame | ⟨hpassed, hnone, hfolder⟩
  · rw [← hsame]
    exact hbc.kept place hplace
  · rcases hbc.kept place hplace with hsame | ⟨-, hnone', -⟩
    · exact .inr ⟨hpassed, hnone, hsame.trans hfolder⟩
    · rw [hfolder] at hnone'
      cases hnone'

/-- A file that is new, or has other contents, is written. -/
theorem written_of_file (h : ChangesOnly written passed a b)
    {place : Location} {data : Bytes}
    (hafter : b.node? place = some (.file data))
    (hbefore : a.node? place ≠ some (.file data)) : written place := by
  apply Classical.byContradiction
  intro hplace
  rcases h.kept place hplace with hsame | ⟨-, -, hfolder⟩
  · exact hbefore (hsame.symm.trans hafter)
  · rw [hafter] at hfolder
    cases hfolder

end ChangesOnly

/-- Where a path starts from depends on the working folder alone. -/
theorem start_eq {a b : FileSystem}
    (h : b.workingFolder = a.workingFolder) (path : PathName) :
    b.start path = a.start path := by
  unfold start
  rw [h]

/-- Putting a node at one location changes nothing at another. -/
theorem node?_put_of_ne (fs : FileSystem) {location other : Location}
    (h : other ≠ location) (node : Node) :
    (fs.put location node).node? other = fs.node? other := by
  cases other with
  | nil => rfl
  | cons name rest => simp [node?, put, lookup_putNode, h]

section

variable {fs : FileSystem} {written passed : Location → Prop}

/-- A node may be put where writing is allowed. -/
theorem put_changesOnly (fs : FileSystem) {location : Location}
    (node : Node) (h : written location) :
    ChangesOnly written passed fs (fs.put location node) := by
  refine ⟨rfl, fun place hplace => .inl (node?_put_of_ne fs ?_ node)⟩
  rintro rfl
  exact hplace h

/-- A folder may also be put where nothing was, on the way. -/
theorem put_folder_changesOnly (fs : FileSystem) {location : Location}
    (hnone : fs.node? location = none) (h : passed location) :
    ChangesOnly written passed fs (fs.put location .folder) := by
  refine ⟨rfl, fun place _ => ?_⟩
  by_cases hplace : place = location
  · subst hplace
    refine .inr ⟨h, hnone, ?_⟩
    rw [node?_put, if_pos rfl]
    rintro rfl
    cases hnone
  · exact .inl (node?_put_of_ne fs hplace .folder)

/-- A write changes the node that its path name leads to. -/
theorem write_changesOnly (fs : FileSystem) {path : PathName} (data : Bytes)
    (h : written (lead (fs.start path) path.pieces)) :
    ChangesOnly written passed fs (fs.write path data).2 := by
  unfold write
  cases hlocated : fs.locate path with
  | error fault => exact .refl
  | ok location =>
      rw [← locate_ok hlocated] at h
      dsimp only
      split
      · exact .refl
      · exact put_changesOnly fs _ h

/-- Folders are made where beginnings of the way lead to. -/
theorem makeFoldersFrom_changesOnly (fs : FileSystem) {here : Location}
    {pieces : List String}
    (h : ∀ front, front <+: pieces →
      written (lead here front) ∨ passed (lead here front)) :
    ChangesOnly written passed fs (fs.makeFoldersFrom here pieces).2 := by
  induction pieces generalizing fs here with
  | nil => exact .refl
  | cons piece rest ih =>
      have hrest : ∀ front, front <+: rest →
          written (lead (follow here piece) front)
            ∨ passed (lead (follow here piece) front) :=
        fun front hfront =>
          h (piece :: front) ((List.prefix_cons_inj piece).mpr hfront)
      unfold makeFoldersFrom
      cases hentered : fs.enter here piece with
      | error fault => exact .refl
      | ok there =>
          rw [← enter_ok hentered] at hrest
          dsimp only
          split
          · exact ih fs hrest
          · exact .refl
          · rename_i hnone
            refine .trans ?_ (ih (fs.put there .folder) hrest)
            rcases hrest [] List.nil_prefix with hwritten | hpassed
            · exact put_changesOnly fs _ hwritten
            · exact put_folder_changesOnly fs hnone hpassed

/-- Making the folders of a path changes no more than is allowed of each of
them. -/
theorem makeFolders_changesOnly (fs : FileSystem) {path : PathName}
    (h : ∀ front, front <+: path.pieces →
      written (lead (fs.start path) front)
        ∨ passed (lead (fs.start path) front)) :
    ChangesOnly written passed fs (fs.makeFolders path).2 := by
  unfold makeFolders
  split
  · exact makeFoldersFrom_changesOnly fs h
  · exact .refl

/-- Saving changes the node that a path name leads to, and makes folders
on the way. -/
theorem save_changesOnly (fs : FileSystem) {path : PathName} (data : Bytes)
    (hwritten : written (lead (fs.start path) path.pieces))
    (hpassed : ∀ front, front <+: path.pieces →
      written (lead (fs.start path) front)
        ∨ passed (lead (fs.start path) front)) :
    ChangesOnly written passed fs (fs.save path data).2 := by
  unfold save
  cases hparent : path.parent? with
  | none => exact write_changesOnly fs data hwritten
  | some parent =>
      obtain ⟨habsolute, hprefix⟩ := PathName.parent?_start hparent
      have hstart : fs.start parent = fs.start path := by
        unfold start
        rw [habsolute]
      have hmade : ChangesOnly written passed fs
          (fs.makeFolders parent).2 := by
        apply makeFolders_changesOnly
        intro front hfront
        rw [hstart]
        exact hpassed front (hfront.trans hprefix)
      dsimp only
      rcases hfolders : fs.makeFolders parent with ⟨_ | _, made⟩
      case error fault =>
          rw [hfolders] at hmade
          exact hmade
      case ok =>
          rw [hfolders] at hmade
          refine hmade.trans (write_changesOnly made data ?_)
          rw [start_eq hmade.workingFolder]
          exact hwritten

/-- A file that is written lands where its path leads, if there is no folder
there. -/
theorem write_ok {path : PathName} {data : Bytes} {after : FileSystem}
    (h : fs.write path data = (.ok (), after)) :
    ∃ place, fs.locate path = .ok place ∧ fs.node? place ≠ some .folder
      ∧ after = fs.put place (.file data) := by
  unfold write at h
  cases hlocated : fs.locate path with
  | error fault =>
      rw [hlocated] at h
      cases h
  | ok place =>
      rw [hlocated] at h
      dsimp only at h
      split at h
      · cases h
      · rename_i hfile
        cases h
        exact ⟨place, rfl, hfile, rfl⟩

/-- A file that was put somewhere is found there. -/
theorem node?_put_file {place : Location}
    (hfile : fs.node? place ≠ some .folder) (data : Bytes) :
    (fs.put place (.file data)).node? place = some (.file data) := by
  rw [node?_put, if_pos rfl]
  rintro rfl
  exact hfile rfl

/-- What has been saved is there. -/
theorem node?_of_write {path : PathName} {data : Bytes}
    {after : FileSystem} (h : fs.write path data = (.ok (), after)) :
    after.node? (lead (fs.start path) path.pieces) = some (.file data) := by
  obtain ⟨place, hlocated, hfile, rfl⟩ := write_ok h
  rw [← locate_ok hlocated]
  exact node?_put_file hfile data

/-- A file that was saved is found where its path leads. -/
theorem node?_of_save {path : PathName} {data : Bytes}
    {after : FileSystem} (h : fs.save path data = (.ok (), after)) :
    after.node? (lead (fs.start path) path.pieces) = some (.file data) := by
  unfold save at h
  cases hparent : path.parent? with
  | none =>
      rw [hparent] at h
      exact node?_of_write h
  | some parent =>
      rw [hparent] at h
      dsimp only at h
      rcases hfolders : fs.makeFolders parent with ⟨_ | _, made⟩
      case error fault =>
          rw [hfolders] at h
          cases h
      case ok =>
          have hmade : ChangesOnly (fun _ => True) (fun _ => False) fs
              (fs.makeFolders parent).2 :=
            makeFolders_changesOnly fs fun _ _ => .inl trivial
          rw [hfolders] at h hmade
          rw [← start_eq hmade.workingFolder]
          exact node?_of_write h

-- A way leads through folders, so a file at its end is on no part of it.
theorem walk_put_file {place : Location}
    (hfile : fs.node? place ≠ some .folder) (data : Bytes)
    {here : Location} {pieces : List String}
    (h : fs.walk here pieces = .ok place) :
    (fs.put place (.file data)).walk here pieces = .ok place := by
  induction pieces generalizing here with
  | nil => exact h
  | cons piece rest ih =>
      unfold walk at h ⊢
      cases henter : fs.enter here piece with
      | error fault =>
          rw [henter] at h
          cases h
      | ok next =>
          rw [henter] at h
          have hhere : here ≠ place := by
            rintro rfl
            unfold enter at henter
            split at henter
            · cases henter
            · cases henter
            · exact hfile ‹_›
          have hsame : (fs.put place (.file data)).enter here piece
              = .ok next := by
            rw [← henter]
            unfold enter
            rw [node?_put_of_ne fs hhere]
          rw [hsame]
          exact ih h

theorem locate_put_file {path : PathName} {place : Location}
    (h : fs.locate path = .ok place)
    (hfile : fs.node? place ≠ some .folder) (data : Bytes) :
    (fs.put place (.file data)).locate path = .ok place := by
  unfold locate at h ⊢
  by_cases hempty : path.isEmpty = true
  · rw [if_pos hempty] at h
    cases h
  rw [if_neg hempty] at h ⊢
  by_cases husable : isUsable path = true
  · rw [if_pos husable] at h ⊢
    exact walk_put_file hfile data h
  · rw [if_neg husable] at h
    cases h

/-- What was written is what is read. -/
theorem read_of_write {path : PathName} {data : Bytes} {after : FileSystem}
    (h : fs.write path data = (.ok (), after)) :
    after.read path = .ok data := by
  obtain ⟨place, hlocated, hfile, rfl⟩ := write_ok h
  unfold read
  rw [locate_put_file hlocated hfile data]
  simp only [bind, Except.bind, node?_put_file hfile data]
  rfl

/-- What has been saved is read under the path name it was saved under. -/
theorem read_of_save {path : PathName} {data : Bytes} {after : FileSystem}
    (h : fs.save path data = (.ok (), after)) :
    after.read path = .ok data := by
  unfold save at h
  split at h
  · exact read_of_write h
  · split at h
    · cases h
    · exact read_of_write h

/-- A file that is new after saving, or has other contents, is the one that
has been saved. -/
theorem eq_of_save {path : PathName} {data other : Bytes}
    {after : FileSystem} (h : fs.save path data = (.ok (), after))
    {place : Location} (hafter : after.node? place = some (.file other))
    (hbefore : fs.node? place ≠ some (.file other)) :
    place = lead (fs.start path) path.pieces := by
  have honly : ChangesOnly (· = lead (fs.start path) path.pieces)
      (fun _ => True) fs (fs.save path data).2 :=
    fs.save_changesOnly data rfl fun _ _ => .inr trivial
  rw [h] at honly
  exact honly.written_of_file hafter hbefore

end
end FileSystem
end GameArchive
