/-
The steps of an extraction.

Along the steps the outcome that the job is bound for stays the same, the
events only grow towards those of the outcome, and the status is at any moment
what the events so far say. The steps that are left become fewer, so the job
ends.

Main statements: `Worker.outcome_step`, `Worker.tells_step`,
`Worker.left_step`.
-/
import GameArchive.Extraction.Job
import GameArchive.Extraction.Worker
import GameArchive.Proofs.Extraction.Stopping

namespace GameArchive.Extraction

open Job (statusAfter)

-- ================================================================== status

/-- The status of a session is what its events say, apart from requests to
stop. -/
def Session.Tells (before : Status) (s : Session) : Prop :=
  s.status.calmed = (statusAfter before s.events).calmed

namespace Session.Tells

variable {before : Status} {s : Session}

/-- The count is what the events say. -/
theorem completed_eq (h : s.Tells before) :
    s.status.completed = (statusAfter before s.events).completed :=
  (congrArg Status.completed h :)

theorem current_eq (h : s.Tells before) :
    s.status.current = (statusAfter before s.events).current :=
  (congrArg Status.current h :)

/-- An event is told to whoever looks at the status. -/
theorem emit (h : s.Tells before) (watch : Watcher) (event : Event) :
    (s.emit watch event).Tells before := by
  have hafter (status : Status) :
      (status.after event).calmed = status.calmed.after event := by
    cases event <;> rfl
  calc (s.emit watch event).status.calmed
      = s.status.calmed.after event :=
        congrArg Session.status (calmed_emit watch s event)
    _ = ((statusAfter before s.events).after event).calmed := by
        rw [h, hafter]
    _ = (statusAfter before (s.emit watch event).events).calmed := by
        rw [Session.events_emit, statusAfter, statusAfter, List.foldl_append]
        rfl

/-- The status still tells what has happened when a turn begins. -/
theorem begun (h : s.Tells before) (watch : Watcher) (turn : Turn) :
    (turn.begun watch s).Tells before :=
  h.emit watch turn.start

theorem noted (h : s.Tells before) (watch : Watcher) (turn : Turn) :
    (turn.noted watch s).Tells before := by
  rcases turn with ⟨_, _ | _⟩ | _ | ⟨_, _ | _, _⟩
  · exact h
  all_goals exact emit h watch _

end Session.Tells

theorem tells_beginning (watch : Watcher) (total : Nat) (files : FileSystem)
    (status : Status) :
    (Session.beginning watch total files status).Tells status :=
  Session.Tells.emit (s := { files := files, status := status }) rfl watch _

/-- The status of an extraction is what its events say. -/
theorem tells_run (x : Extractor) (watch : Watcher) (total : Nat)
    (orders : List Order) (files : FileSystem) (status : Status) :
    (x.run watch total orders files status).1.Tells status := by
  rw [x.run_eq_play]
  exact play_keeps watch _ (fun turn _ s hs => hs.begun watch turn)
    (fun turn _ s hs => hs.noted watch turn) (tells_beginning ..)

/-- The count never falls when an outcome is noted. -/
theorem Turn.completed_le_noted (watch : Watcher) (turn : Turn)
    (s : Session) :
    s.status.completed ≤ (turn.noted watch s).status.completed := by
  rcases turn with ⟨_, _ | _⟩ | _ | ⟨_, _ | _, _⟩
  · exact Nat.le_refl _
  · rw [noted, Session.completed_emit]
    exact Nat.le_refl _
  all_goals
    rw [noted, Session.advance, Session.completed_emit]
    exact Nat.le_add_right ..

/-- Playing turns only adds events. -/
theorem events_play (watch : Watcher) (strict : Bool) (turns : List Turn)
    (s : Session) :
    s.events <+: (play watch strict turns s).1.events := by
  refine play_keeps watch strict (I := fun t => s.events <+: t.events)
    (fun turn _ t ht => ht.trans (List.prefix_append ..))
    (fun turn _ t ht => ht.trans (turn.events_noted watch t))
    List.prefix_rfl

-- ================================================================== worker

namespace Worker

/-- How many steps may be left. -/
def left : Worker → Nat
  | looking turns _ => 3 * turns.length + 1
  | beginning _ rest _ => 3 * rest.length + 3
  | noting _ rest _ => 3 * rest.length + 2
  | ended _ _ => 0

/-- The job has ended exactly if no steps are left. -/
theorem isOver_iff {w : Worker} : w.isOver = true ↔ w.left = 0 := by
  cases w <;> simp [isOver, result?, left]

/-- A job that has ended has an ending. -/
theorem eq_ended {w : Worker} (h : w.isOver = true) :
    ∃ ending, w = ended w.session ending := by
  cases w with
  | ended s ending => exact ⟨ending, rfl⟩
  | _ => cases h

variable (watch : Watcher) (strict : Bool)

/-- What the job is bound for. -/
def outcome : Worker → Session × Ending
  | looking turns s => play watch strict turns s
  | beginning turn rest s =>
    match if strict then turn.failure? else none with
    | some cause => (turn.begun watch s, .failed cause)
    | none => play watch strict rest (turn.played watch s)
  | noting turn rest s =>
    match if strict then turn.failure? else none with
    | some cause => (s, .failed cause)
    | none => play watch strict rest (turn.noted watch s)
  | ended s ending => (s, ending)

/-- No step changes what the job is bound for. -/
theorem outcome_step (w : Worker) :
    (w.step watch strict).outcome watch strict = w.outcome watch strict := by
  cases w with
  | looking turns s =>
      cases turns with
      | nil => rfl
      | cons turn rest =>
          rw [step, outcome, play]
          split
          next => rfl
          next => rfl
  | beginning turn rest s => rfl
  | noting turn rest s =>
      rw [step, outcome]
      cases (if strict then turn.failure? else none) with
      | some cause => rfl
      | none => rfl
  | ended s ending => rfl

/-- Every step but those of a job that has ended is one of those that are
left. -/
theorem left_step {w : Worker} (h : w.left ≠ 0) :
    (w.step watch strict).left < w.left := by
  cases w with
  | looking turns s =>
      cases turns with
      | nil => exact Nat.zero_lt_one
      | cons turn rest =>
          rw [step]
          split
          next => exact Nat.succ_pos _
          next =>
            simp only [left, List.length_cons]
            omega
  | beginning turn rest s => exact Nat.lt_succ_self _
  | noting turn rest s =>
      rw [step]
      split
      next => exact Nat.succ_pos _
      next => exact Nat.lt_succ_self _
  | ended s ending => exact absurd rfl h

theorem step_of_isOver {w : Worker} (h : w.isOver = true) :
    w.step watch strict = w := by
  obtain ⟨ending, heq⟩ := eq_ended h
  rw [heq]
  rfl

-- ================================================================= session

/-- What a step does to the session. -/
theorem session_step (w : Worker) :
    (w.step watch strict).session = w.session
      ∨ ∃ turn : Turn,
        (w.step watch strict).session = turn.begun watch w.session
          ∨ (w.step watch strict).session = turn.noted watch w.session := by
  cases w with
  | looking turns s =>
      cases turns with
      | nil => exact .inl rfl
      | cons turn rest =>
          rw [step]
          split
          next => exact .inl rfl
          next => exact .inl rfl
  | beginning turn rest s => exact .inr ⟨turn, .inl rfl⟩
  | noting turn rest s =>
      rw [step]
      split
      next => exact .inl rfl
      next => exact .inr ⟨turn, .inr rfl⟩
  | ended s ending => exact .inl rfl

/-- Every step of the job leaves a status that tells its events. -/
theorem tells_step {before : Status} {w : Worker}
    (h : w.session.Tells before) :
    (w.step watch strict).session.Tells before := by
  rcases session_step watch strict w with hsame | ⟨turn, hbegun | hnoted⟩
  · exact hsame ▸ h
  · rw [hbegun]
    exact h.begun watch turn
  · rw [hnoted]
    exact h.noted watch turn

/-- No item that is done with is taken back. -/
theorem completed_le_step (w : Worker) :
    w.session.status.completed
      ≤ (w.step watch strict).session.status.completed := by
  rcases session_step watch strict w with hsame | ⟨turn, hbegun | hnoted⟩
  · exact hsame ▸ Nat.le_refl _
  · rw [hbegun]
    exact Nat.le_of_eq (turn.completed_begun watch _).symm
  · rw [hnoted]
    exact turn.completed_le_noted watch _

/-- What has happened belongs to what the job is bound for. -/
theorem events_outcome (w : Worker) :
    w.session.events <+: (w.outcome watch strict).1.events := by
  cases w with
  | looking turns s => exact events_play watch strict turns s
  | beginning turn rest s =>
      have hbegun : s.events <+: (turn.begun watch s).events :=
        List.prefix_append ..
      rw [outcome]
      split
      next => exact hbegun
      next =>
        exact hbegun.trans ((turn.events_noted watch _).trans
          (events_play watch strict rest _))
  | noting turn rest s =>
      rw [outcome]
      split
      next => exact List.prefix_rfl
      next =>
        exact (turn.events_noted watch s).trans
          (events_play watch strict rest _)
  | ended s ending => exact List.prefix_rfl

end Worker
end GameArchive.Extraction
