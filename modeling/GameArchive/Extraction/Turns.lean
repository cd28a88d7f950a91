/-
An extraction as a list of turns.

In each turn a container is opened or an item is extracted. What comes of a
turn depends on the files alone: nothing that has been counted, reported or
asked for has any part in it. So the turns of an extraction are a list that
is fixed by the orders and by the files in the beginning, and the extraction
plays this list. A request to stop, and strictness, only decide how far it
is played: a turn that is begun is also carried out, and all turns before
it are played to their ends.
-/
import GameArchive.Extraction.Run

namespace GameArchive.Extraction

open Package (Container Error)

/-- The session in which a run begins, when `total` items are known of. -/
def Session.beginning (watch : Watcher) (total : Nat) (files : FileSystem)
    (status : Status) : Session :=
  { files := files, status := status : Session }.emit watch (.range total)

-- =========================================================== the turns

/-- What comes of one step of an extraction. -/
inductive Turn where
  /-- A container was opened; if all of it is wanted, so many items are
  known of from then on. -/
  | opened (container : String) (total : Option Nat)
  /-- A container could not be opened, of which so many items are known. -/
  | refused (container : String) (size : Nat) (cause : Error)
  /-- An item was written somewhere, or was not; these are the files
  afterwards. -/
  | item (path : String) (result : Except Error Location)
      (files : FileSystem)

namespace Turn

/-- How a turn begins. -/
def start : Turn → Event
  | .opened container _ => .loading container
  | .refused container _ _ => .loading container
  | .item path _ _ => .item path

/-- The files after a turn. -/
def after (files : FileSystem) : Turn → FileSystem
  | .opened _ _ => files
  | .refused _ _ _ => files
  | .item _ _ files => files

/-- How many items are known of after a turn. -/
def known (total : Nat) : Turn → Nat
  | .opened _ (some total) => total
  | _ => total

/-- What went wrong in a turn. -/
def failure? : Turn → Option Error
  | .opened _ _ => none
  | .refused _ _ cause => some cause
  | .item _ (.ok _) _ => none
  | .item _ (.error cause) _ => some cause

/-- The session when a turn has been carried out. -/
def begun (watch : Watcher) (turn : Turn) (s : Session) : Session :=
  { s.emit watch turn.start with files := turn.after s.files }

/-- The session when the outcome of a turn has been noted. -/
def noted (watch : Watcher) (turn : Turn) (s : Session) : Session :=
  match turn with
  | .opened _ none => s
  | .opened _ (some total) => s.emit watch (.range total)
  | .refused container size cause =>
    (s.failed container cause).advance watch size
  | .item _ (.ok location) _ => (s.wrote location).advance watch 1
  | .item path (.error cause) _ => (s.failed path cause).advance watch 1

/-- The session after a turn. -/
def played (watch : Watcher) (turn : Turn) (s : Session) : Session :=
  turn.noted watch (turn.begun watch s)

end Turn

-- ================================================== the turns of a run

/-- How many items are told to be known of when all of a container of
`count` entries is wanted and there were `total` items before. -/
def Order.told (order : Order) (total count : Nat) : Option Nat :=
  match order.wanted with
  | some _ => none
  | none => some (total + count)

namespace Extractor

/-- The turns of items of a container. -/
def itemTurns (x : Extractor) (c : Container) :
    FileSystem → List Order.Item → List Turn
  | _, [] => []
  | files, item :: rest =>
    let outcome := x.extractEntry files c item.entry
    .item item.path outcome.1 outcome.2 :: x.itemTurns c outcome.2 rest

/-- The turns of an order. -/
def orderTurns (x : Extractor) (total : Nat) (files : FileSystem)
    (order : Order) : List Turn :=
  match x.source files order.container with
  | .error cause => [.refused order.container order.size cause]
  | .ok c =>
    .opened order.container (order.told total c.entries.length)
      :: x.itemTurns c files (order.items c)

/-- The turns of orders, when `total` items are known of. -/
def turns (x : Extractor) :
    (total : Nat) → FileSystem → List Order → List Turn
  | _, _, [] => []
  | total, files, order :: rest =>
    let here := x.orderTurns total files order
    here ++ x.turns (here.foldl Turn.known total)
      (here.foldl Turn.after files) rest

end Extractor

-- ============================================================= playing

/-- Plays turns, as long as nobody has asked to stop; if it is strict, up to
the first failure, of which nothing is noted. -/
def play (watch : Watcher) (strict : Bool) :
    List Turn → Session → Session × Ending
  | [], s => (s, .finished)
  | turn :: rest, s =>
    if s.status.stopRequested then (s, .cancelled)
    else
      match if strict then turn.failure? else none with
      | some cause => (turn.begun watch s, .failed cause)
      | none => play watch strict rest (turn.played watch s)

/-- The session after turns that are all played. -/
def playAll (watch : Watcher) (turns : List Turn) (s : Session) : Session :=
  turns.foldl (fun s turn => turn.played watch s) s

end GameArchive.Extraction
