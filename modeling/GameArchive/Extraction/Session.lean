/-
The state of an extraction, and what can be seen of it from outside.

Everything that happens is an event, and the status of a job is what its
events say. Whoever watches the events can ask the job to stop at any time;
a watcher is a function of the events so far, so that asking between two
events, before the first or never are all the same kind of thing.
-/
import GameArchive.Package.Transcoding

namespace GameArchive.Extraction

open Package (Error)

-- ================================================================= events

/-- What happens in an extraction. -/
inductive Event where
  /-- It is known how many items there are so far. -/
  | range (total : Nat)
  /-- A container is being opened. -/
  | loading (container : String)
  /-- An item is being extracted. -/
  | item (path : String)
  /-- So many items are done with. -/
  | progress (completed : Nat)
deriving DecidableEq, Repr

/-- The containers that were opened, or could not be. -/
def loads (events : List Event) : List String :=
  events.filterMap fun
    | .loading container => some container
    | _ => none

/-- Whether somebody asks to stop right after these events. -/
abbrev Watcher := List Event → Bool

/-- Nobody asks to stop. -/
def Watcher.silent : Watcher := fun _ => false

-- ================================================================= status

/-- What is known of a job while it runs. -/
structure Status where
  completed : Nat := 0
  current : Option String := none
  stopRequested : Bool := false
deriving DecidableEq, Repr

namespace Status

/-- The status after an event. -/
def after (s : Status) : Event → Status
  | .range _ => s
  | .loading container => { s with current := some container }
  | .item path => { s with current := some path }
  | .progress completed => { s with completed := completed }

/-- The status after somebody asked to stop. -/
def requestStop (s : Status) : Status := { s with stopRequested := true }

end Status

-- ================================================================ session

/-- What has been achieved: the files written, as names below the output
folder, and the items and containers that failed. -/
structure Report where
  written : List Location := []
  failures : List (String × Error) := []
deriving DecidableEq, Repr

/-- How an extraction ends. -/
inductive Ending where
  /-- Nothing was left out. -/
  | finished
  /-- Somebody asked to stop before everything was done. -/
  | cancelled
  /-- A strict extraction met an error. -/
  | failed (cause : Error)
deriving DecidableEq, Repr

/-- The state of an extraction. -/
structure Session where
  files : FileSystem
  status : Status
  events : List Event := []
  report : Report := {}
deriving DecidableEq, Repr

namespace Session

/-- Lets an event happen, after which somebody may ask to stop. -/
def emit (watch : Watcher) (event : Event) (s : Session) : Session :=
  let events := s.events ++ [event]
  let status := s.status.after event
  { s with
    events := events
    status := if watch events then status.requestStop else status }

/-- Counts items as done with. -/
def advance (watch : Watcher) (count : Nat) (s : Session) : Session :=
  s.emit watch (.progress (s.status.completed + count))

/-- Notes a file as written. -/
def wrote (location : Location) (s : Session) : Session :=
  { s with report := { s.report with written := s.report.written ++ [location] } }

/-- Notes an item or a container as failed. -/
def failed (name : String) (cause : Error) (s : Session) : Session :=
  { s with report := { s.report with failures := s.report.failures ++ [(name, cause)] } }

end Session

/-- Whether everything that was wanted has been written. -/
def isSuccess (ending : Ending) (report : Report) : Bool :=
  ending = .finished && report.failures.isEmpty

end GameArchive.Extraction
