/-
Waiting for a job while it runs.

The job and the waiting side take their steps in any order, one at a time, and
each step sees what was done in all before it. The waiting side asks whether
the job has ended, reads the count and then the current item, and begins again
unless the job had ended when it asked; the job may go on between any two of
these steps.
-/
import GameArchive.Extraction.Job
import GameArchive.Extraction.Worker

namespace GameArchive.Extraction.Job

/-- What the waiting side does next. -/
inductive Stage where
  /-- It asks whether the job has ended. -/
  | asking
  /-- It reads the count, and knows whether the job had ended. -/
  | counting (ended : Bool)
  /-- It reads the current item. -/
  | naming (ended : Bool)
  /-- It takes the outcome of the job, when there is one. -/
  | joining
  /-- It has returned with an outcome. -/
  | returned (outcome : Session × Ending)

/-- The waiting side: what it does next, the last item that it passed on, and
all that it passed on. -/
structure Waiter where
  stage : Stage
  shown : Option String
  notices : List Notice

/-- The next step of the waiting side. -/
def Waiter.step (worker : Worker) (w : Waiter) : Waiter :=
  match w.stage with
  | .asking => { w with stage := .counting worker.isOver }
  | .counting ended =>
    { w with
      stage := .naming ended
      notices := w.notices ++ [.progress worker.session.status.completed] }
  | .naming ended =>
    let current := worker.session.status.current
    { stage := if ended then .joining else .asking
      shown := current.or w.shown
      notices := w.notices ++ labelNotice w.shown current }
  | .joining =>
    match worker.result? with
    | some outcome => { w with stage := .returned outcome }
    | none => w
  | .returned _ => w

/-- A job, and who waits for it. -/
structure Pair where
  worker : Worker
  waiter : Waiter

/-- The sides that take steps. -/
inductive Side where
  | worker
  | waiter
deriving DecidableEq

variable (x : Extractor) (watch : Watcher) (requests : List Request)
  (files : FileSystem) (status : Status)

/-- A step of one of the sides. -/
def Pair.step (side : Side) (pair : Pair) : Pair :=
  match side with
  | .worker => { pair with worker := pair.worker.step watch x.options.strict }
  | .waiter => { pair with waiter := pair.waiter.step pair.worker }

/-- The job before its first turn, and the waiting side before its first
look. -/
def Pair.initial : Pair where
  worker := .looking (x.turns requests.length files (Order.ofRequests requests))
    (Session.beginning watch requests.length files status)
  waiter := ⟨.asking, none, [.range requests.length]⟩

/-- The sides after so many steps, which they take in the order of a
schedule. -/
def Pair.after (schedule : Nat → Side) : Nat → Pair
  | 0 => initial x watch requests files status
  | n + 1 => (after schedule n).step x watch (schedule n)

end GameArchive.Extraction.Job
