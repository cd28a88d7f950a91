/-
What an extraction writes.

A session keeps the files as they are after a run, and not how they came to be
so. What is written is told by the items that were begun: each leads to one
file, or to none, in the files as they are when its turn comes. These writes
account for all that a run does to the files, so that two runs with the same
writes, in the same order, have changed the files the same way.

Main statement: `files_run`.
-/
import GameArchive.Proofs.Extraction.Notes

namespace GameArchive.Extraction

open Package (Container Entry Error)

-- ================================================================= counts

/-- How many items were begun. -/
def itemsBegun (events : List Event) : Nat :=
  events.countP fun
    | .item _ => true
    | _ => false

theorem itemsBegun_append (front back : List Event) :
    itemsBegun (front ++ back) = itemsBegun front + itemsBegun back :=
  List.countP_append

/-- Items are begun in turns. -/
theorem itemsBegun_marks (events : List Event) :
    itemsBegun (marks events) = itemsBegun events := by
  unfold itemsBegun marks
  rw [List.countP_filter]
  refine List.countP_congr fun event _ => ?_
  cases event <;> simp [Event.isMark]

namespace Turn

variable (watch : Watcher) (turn : Turn) (s : Session)

/-- A turn that is played leaves one mark: that of its beginning. -/
theorem marks_played :
    marks (turn.played watch s).events = marks s.events ++ [turn.start] := by
  rw [played, marks_noted, marks_begun]

theorem itemsBegun_begun :
    itemsBegun (turn.begun watch s).events
      = itemsBegun s.events + itemsBegun [turn.start] :=
  itemsBegun_append ..

theorem itemsBegun_played :
    itemsBegun (turn.played watch s).events
      = itemsBegun s.events + itemsBegun [turn.start] := by
  rw [← itemsBegun_marks, marks_played, itemsBegun_append, itemsBegun_marks]

theorem loads_begun :
    loads (turn.begun watch s).events = loads s.events ++ loads [turn.start] :=
  List.filterMap_append ..

theorem loads_played :
    loads (turn.played watch s).events
      = loads s.events ++ loads [turn.start] := by
  rw [← loads_marks, marks_played, ← loads_marks s.events]
  exact List.filterMap_append ..

end Turn

-- ================================================================== writes

/-- The files after writes. -/
def carryOut (files : FileSystem) (writes : List (PathName × Bytes)) :
    FileSystem :=
  writes.foldl (fun files write => (files.save write.1 write.2).2) files

theorem carryOut_append (files : FileSystem)
    (front back : List (PathName × Bytes)) :
    carryOut files (front ++ back) = carryOut (carryOut files front) back :=
  List.foldl_append

namespace Extractor

/-- What is written of an entry, and where to. -/
def write? (x : Extractor) (files : FileSystem) (c : Container)
    (found : Except Error Entry) : Option (PathName × Bytes) :=
  match x.prepare (c.refresh files) found with
  | .error _ => none
  | .ok (location, data) => some (x.output.below location, data)

/-- What is written of entries, one after the other. -/
def writesOf (x : Extractor) (c : Container) :
    FileSystem → List (Except Error Entry) → List (PathName × Bytes)
  | _, [] => []
  | files, found :: rest =>
    (x.write? files c found).toList
      ++ x.writesOf c (x.extractEntry files c found).2 rest

/-- What was written in a session that carries out an order. -/
def writes (x : Extractor) (order : Order) (files : FileSystem)
    (s : Session) : List (PathName × Bytes) :=
  match x.source files order.container with
  | .error _ => []
  | .ok c =>
    x.writesOf c files
      (((order.items c).map Order.Item.entry).take (itemsBegun s.events))

variable (x : Extractor)

/-- Nothing else is changed when an entry is extracted. -/
theorem files_extractEntry (files : FileSystem) (c : Container)
    (found : Except Error Entry) :
    (x.extractEntry files c found).2
      = carryOut files (x.write? files c found).toList := by
  unfold extractEntry write?
  cases x.prepare (c.refresh files) found with
  | error cause => rfl
  | ok prepared =>
      show _ = (files.save (x.output.below prepared.1) prepared.2).2
      dsimp only
      split
      next hsave => rw [hsave]
      next hsave => rw [hsave]

variable (watch : Watcher) (strict : Bool)

/-- The files after items that were played are those after the writes of the
items that were begun. -/
theorem files_play_itemTurns (c : Container) (items : List Order.Item)
    {files : FileSystem} {s : Session} (hfiles : s.files = files) :
    ∃ count,
      itemsBegun (play watch strict (x.itemTurns c files items) s).1.events
          = itemsBegun s.events + count
        ∧ (play watch strict (x.itemTurns c files items) s).1.files
          = carryOut files (x.writesOf c files
              ((items.map Order.Item.entry).take count)) := by
  induction items generalizing files s with
  | nil => exact ⟨0, rfl, hfiles⟩
  | cons item rest ih =>
      rw [itemTurns, play]
      by_cases hstop : s.status.stopRequested = true
      · rw [if_pos hstop]
        exact ⟨0, rfl, hfiles⟩
      rw [if_neg hstop]
      generalize hturn : Turn.item item.path
        (x.extractEntry files c item.entry).1
        (x.extractEntry files c item.entry).2 = turn
      have hafter : turn.after s.files
          = (x.extractEntry files c item.entry).2 := by
        rw [← hturn]
        rfl
      have hone : itemsBegun [turn.start] = 1 := by
        rw [← hturn]
        rfl
      -- A strict run counts the item that it fails at: it was begun, and may
      -- have been written.
      cases (if strict then turn.failure? else none) with
      | some cause =>
          refine ⟨1, ?_, ?_⟩
          · rw [← hone]
            exact turn.itemsBegun_begun watch s
          · show turn.after s.files = _
            rw [hafter, files_extractEntry, List.map_cons,
              List.take_succ_cons, List.take_zero, writesOf, writesOf,
              List.append_nil]
      | none =>
          obtain ⟨count, hcount, hwritten⟩ :=
            ih ((turn.files_played watch s).trans hafter)
          rw [turn.itemsBegun_played, hone] at hcount
          refine ⟨count + 1, hcount.trans (by omega), ?_⟩
          rw [List.map_cons, List.take_succ_cons, writesOf, carryOut_append,
            ← files_extractEntry]
          exact hwritten

/-- A run that carries out one order changes the files by its writes, and by
nothing else. -/
theorem files_run (total : Nat) (order : Order) (files : FileSystem)
    (status : Status) :
    (x.run watch total [order] files status).1.files
      = carryOut files
          (x.writes order files
            (x.run watch total [order] files status).1) := by
  rw [run_eq_play, turns, turns, List.append_nil, writes, orderTurns]
  cases x.source files order.container with
  | error cause =>
      dsimp only
      rw [play]
      split
      next => rfl
      next => cases x.options.strict <;> rfl
  | ok c =>
      dsimp only
      rw [play_opened]
      split
      next => rfl
      next =>
        generalize hopened : Turn.played watch
          (.opened order.container (order.told total c.entries.length))
          (Session.beginning watch total files status) = s
        have hfiles : s.files = files := by
          rw [← hopened, Turn.files_played]
          rfl
        have hnone : itemsBegun s.events = 0 := by
          rw [← hopened]
          exact Turn.itemsBegun_played ..
        obtain ⟨count, hcount, hwritten⟩ := x.files_play_itemTurns watch
          x.options.strict c (order.items c) hfiles
        rw [hcount, hnone, Nat.zero_add]
        exact hwritten

end Extractor
end GameArchive.Extraction
