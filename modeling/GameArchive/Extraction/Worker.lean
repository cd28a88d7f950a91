/-
An extraction, one step at a time.

Whoever watches a job can look at its status at any moment, so the job is
taken apart at the moments between which a look makes no difference: it looks
for a request to stop, begins a turn, and notes what came of it. Each of these
steps touches the shared status at most once.
-/
import GameArchive.Extraction.Turns

namespace GameArchive.Extraction

/-- Where a job is, with the turns that are left. -/
inductive Worker where
  /-- It is about to look whether somebody has asked to stop. -/
  | looking (turns : List Turn) (s : Session)
  /-- It is about to begin a turn. -/
  | beginning (turn : Turn) (rest : List Turn) (s : Session)
  /-- It has carried out a turn, and is about to note what came of it. -/
  | noting (turn : Turn) (rest : List Turn) (s : Session)
  /-- It has ended. -/
  | ended (s : Session) (ending : Ending)

namespace Worker

/-- The session as it is. -/
def session : Worker → Session
  | looking _ s => s
  | beginning _ _ s => s
  | noting _ _ s => s
  | ended s _ => s

/-- The outcome of a job that has ended. -/
def result? : Worker → Option (Session × Ending)
  | ended s ending => some (s, ending)
  | _ => none

/-- Whether the job has ended. -/
def isOver (w : Worker) : Bool := w.result?.isSome

/-- The next step. -/
def step (watch : Watcher) (strict : Bool) : Worker → Worker
  | looking [] s => ended s .finished
  | looking (turn :: rest) s =>
    if s.status.stopRequested then ended s .cancelled
    else beginning turn rest s
  | beginning turn rest s => noting turn rest (turn.begun watch s)
  | noting turn rest s =>
    match if strict then turn.failure? else none with
    | some cause => ended s (.failed cause)
    | none => looking rest (turn.noted watch s)
  | ended s ending => ended s ending

end Worker
end GameArchive.Extraction
