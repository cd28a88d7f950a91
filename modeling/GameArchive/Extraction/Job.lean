/-
Waiting for an extraction that runs in the background.

The waiting side looks at the job from time to time, and once more when it
has ended. Each time it passes on the count, and then the current item if
that is another than before; since the job goes on meanwhile, the item can
be a later one than the count.
-/
import GameArchive.Extraction.Run

namespace GameArchive.Extraction.Job

/-- What the waiting side passes on. -/
inductive Notice where
  | range (total : Nat)
  | progress (completed : Nat)
  | label (current : String)
deriving DecidableEq, Repr

/-- When the waiting side looks at a job: after how many of its events it
reads the count, and after how many the current item. -/
structure Poll where
  countAfter : Nat
  currentAfter : Nat
deriving DecidableEq, Repr

/-- The status after events. -/
def statusAfter (before : Status) (events : List Event) : Status :=
  events.foldl Status.after before

/-- What is passed on of the current item, when `shown` was the last. -/
def labelNotice (shown current : Option String) : List Notice :=
  match current with
  | some item => if current = shown then [] else [.label item]
  | none => []

/-- What is passed on of a job with these events, when `shown` was the last
item. -/
def notices (before : Status) (events : List Event) :
    (shown : Option String) → List Poll → List Notice
  | _, [] => []
  | shown, poll :: rest =>
    let completed := (statusAfter before (events.take poll.countAfter)).completed
    let current := (statusAfter before (events.take poll.currentAfter)).current
    .progress completed
      :: (labelNotice shown current ++ notices before events (current.or shown) rest)

/-- The look at a job that has ended. -/
def lastPoll (events : List Event) : Poll := ⟨events.length, events.length⟩

/-- Extracts the requested entries in the background; also what is passed on
by a waiting side that looks at the job at the times given. -/
def await (x : Extractor) (watch : Watcher) (requests : List Request) (files : FileSystem)
    (status : Status) (polls : List Poll) : List Notice × (Session × Ending) :=
  let outcome := x.extract watch requests files status
  let events := outcome.1.events
  (.range requests.length :: notices status events none (polls ++ [lastPoll events]),
    outcome)

end GameArchive.Extraction.Job
