/-
What turns leave in a session.

Every turn begins with an event of its own, its mark, adds at most one line
to the report, and is done with a number of items. So marks, report and
count of a session that has played turns are read off the turns, in their
order. The counts that are told rise with the number of items done with,
which makes them an invariant: they lie between the count in the beginning
and the last one, which is the count now.

If nobody has asked to stop by the end, a tolerant run has played all of
its turns, and a strict one all turns up to the first failure.

Main statements: `play_tolerant`, `play_strict`, `rising_play`.
-/
import GameArchive.Proofs.Extraction.Turns

namespace GameArchive.Extraction

open Package (Error)

-- ================================================================ events

/-- Whether an event begins a turn. -/
def Event.isMark : Event → Bool
  | .loading _ => true
  | .item _ => true
  | _ => false

/-- The events that begin turns. -/
def marks (events : List Event) : List Event := events.filter Event.isMark

/-- The counts that are told. -/
def values (events : List Event) : List Nat :=
  events.filterMap fun
    | .progress completed => some completed
    | _ => none

theorem marks_append (front back : List Event) :
    marks (front ++ back) = marks front ++ marks back :=
  List.filter_append ..

theorem values_append (front back : List Event) :
    values (front ++ back) = values front ++ values back :=
  List.filterMap_append ..

/-- Containers are opened in turns. -/
theorem loads_marks (events : List Event) :
    loads (marks events) = loads events := by
  induction events with
  | nil => rfl
  | cons event events ih =>
      cases event with
      | loading container => exact congrArg (container :: ·) ih
      | item path => exact ih
      | range total => exact ih
      | progress completed => exact ih

-- ================================================================= turns

namespace Turn

/-- Where a turn has written something. -/
def written? : Turn → Option Location
  | .item _ (.ok location) _ => some location
  | _ => none

/-- What a turn reports as failed. -/
def note? : Turn → Option (String × Error)
  | .refused container _ cause => some (container, cause)
  | .item path (.error cause) _ => some (path, cause)
  | _ => none

/-- How many items are done with after a turn. -/
def size : Turn → Nat
  | .opened _ _ => 0
  | .refused _ size _ => size
  | .item _ _ _ => 1

variable (watch : Watcher) (turn : Turn) (s : Session)

theorem isMark_start : turn.start.isMark = true := by
  cases turn <;> rfl

/-- What goes wrong in a turn is what it reports. -/
theorem failure?_eq : turn.failure? = turn.note?.map Prod.snd := by
  rcases turn with ⟨_, _⟩ | _ | ⟨_, _ | _, _⟩ <;> rfl

/-- A turn reports the place that it has written, if there is one. -/
theorem written_played :
    (turn.played watch s).report.written
      = s.report.written ++ turn.written?.toList := by
  rcases turn with ⟨_, _ | _⟩ | _ | ⟨_, _ | _, _⟩
  case item.ok => rfl
  all_goals exact (List.append_nil _).symm

theorem failures_played :
    (turn.played watch s).report.failures
      = s.report.failures ++ turn.note?.toList := by
  rcases turn with ⟨_, _ | _⟩ | _ | ⟨_, _ | _, _⟩
  case refused => rfl
  case item.error => rfl
  all_goals exact (List.append_nil _).symm

/-- What has happened stays. -/
theorem events_noted : s.events <+: (turn.noted watch s).events := by
  rcases turn with ⟨_, _ | _⟩ | _ | ⟨_, _ | _, _⟩
  · exact List.prefix_rfl
  all_goals exact List.prefix_append ..

theorem completed_begun :
    (turn.begun watch s).status.completed = s.status.completed := by
  show (s.emit watch turn.start).status.completed = _
  rw [Session.completed_emit]
  cases turn <;> rfl

/-- A turn that has been played counts with its size. -/
theorem completed_played :
    (turn.played watch s).status.completed
      = s.status.completed + turn.size := by
  have hbegun := turn.completed_begun watch s
  unfold played
  rcases turn with ⟨_, _ | _⟩ | _ | ⟨_, _ | _, _⟩
  all_goals
    simp only [noted, Session.advance, Session.completed_emit, size]
    rw [← hbegun]
    rfl

/-- Its own mark is all that the beginning of a turn adds. -/
theorem marks_begun :
    marks (turn.begun watch s).events = marks s.events ++ [turn.start] := by
  show marks (s.events ++ [turn.start]) = _
  rw [marks_append]
  exact congrArg _ (List.filter_cons_of_pos turn.isMark_start)

theorem marks_noted :
    marks (turn.noted watch s).events = marks s.events := by
  rcases turn with ⟨_, _ | _⟩ | _ | ⟨_, _ | _, _⟩
  · rfl
  all_goals
    show marks (s.events ++ [_]) = _
    rw [marks_append]
    exact List.append_nil _

end Turn

-- ====================================================== all turns played

/-- How many items are done with after turns. -/
def sizeOfTurns : List Turn → Nat
  | [] => 0
  | turn :: rest => turn.size + sizeOfTurns rest

theorem sizeOfTurns_append (front back : List Turn) :
    sizeOfTurns (front ++ back) = sizeOfTurns front + sizeOfTurns back := by
  induction front with
  | nil => simp [sizeOfTurns]
  | cons turn front ih =>
      simp only [List.cons_append, sizeOfTurns, ih]
      omega

variable (watch : Watcher) (turns : List Turn) (s : Session)

/-- The report lists what was written, in the order of the turns. -/
theorem written_playAll :
    (playAll watch turns s).report.written
      = s.report.written ++ turns.filterMap Turn.written? := by
  induction turns generalizing s with
  | nil => exact (List.append_nil _).symm
  | cons turn turns ih =>
      show (playAll watch turns (turn.played watch s)).report.written = _
      rw [ih, turn.written_played]
      cases h : turn.written? <;> simp [h]

theorem failures_playAll :
    (playAll watch turns s).report.failures
      = s.report.failures ++ turns.filterMap Turn.note? := by
  induction turns generalizing s with
  | nil => exact (List.append_nil _).symm
  | cons turn turns ih =>
      show (playAll watch turns (turn.played watch s)).report.failures = _
      rw [ih, turn.failures_played]
      cases h : turn.note? <;> simp [h]

/-- Events are only ever added. -/
theorem events_playAll :
    s.events <+: (playAll watch turns s).events := by
  induction turns generalizing s with
  | nil => exact List.prefix_rfl
  | cons turn turns ih =>
      have hbegun : s.events <+: (turn.begun watch s).events :=
        List.prefix_append ..
      exact hbegun.trans ((turn.events_noted watch _).trans (ih _))

/-- The marks are one for each turn. -/
theorem marks_playAll :
    marks (playAll watch turns s).events
      = marks s.events ++ turns.map Turn.start := by
  induction turns generalizing s with
  | nil => exact (List.append_nil _).symm
  | cons turn turns ih =>
      show marks (playAll watch turns (turn.played watch s)).events = _
      rw [ih, Turn.played, turn.marks_noted, turn.marks_begun]
      simp

/-- The counter has risen by the size of all turns. -/
theorem completed_playAll :
    (playAll watch turns s).status.completed
      = s.status.completed + sizeOfTurns turns := by
  induction turns generalizing s with
  | nil => rfl
  | cons turn turns ih =>
      show (playAll watch turns (turn.played watch s)).status.completed = _
      rw [ih, turn.completed_played, sizeOfTurns]
      omega

theorem playAll_append (front back : List Turn) :
    playAll watch (front ++ back) s
      = playAll watch back (playAll watch front s) :=
  List.foldl_append

-- ===================================================== nobody asks to stop

/-- Who has asked to stop once has done so ever after. -/
theorem stopRequested_playAll (h : s.status.stopRequested = true) :
    (playAll watch turns s).status.stopRequested = true := by
  induction turns generalizing s with
  | nil => exact h
  | cons turn turns ih =>
      apply ih
      exact turn.stopRequested_noted watch _
        (turn.stopRequested_begun watch s h)

variable {watch turns s}

/-- If nobody has asked to stop in the end, nobody had before. -/
theorem calm_before
    (hcalm : (playAll watch turns s).status.stopRequested = false) :
    s.status.stopRequested = false := by
  cases hstop : s.status.stopRequested with
  | false => rfl
  | true =>
      rw [stopRequested_playAll watch turns s hstop] at hcalm
      exact hcalm

/-- A tolerant run in which nobody asks to stop plays all turns. -/
theorem play_tolerant
    (hcalm : (play watch false turns s).1.status.stopRequested = false) :
    play watch false turns s = (playAll watch turns s, .finished) := by
  induction turns generalizing s with
  | nil => rfl
  | cons turn turns ih =>
      unfold play at hcalm ⊢
      by_cases hstop : s.status.stopRequested = true
      · rw [if_pos hstop, hstop] at hcalm
        cases hcalm
      · rw [if_neg hstop] at hcalm ⊢
        exact ih hcalm

/-- As long as nothing fails and nobody asks to stop, a strict run is at the
same point as any other. -/
theorem play_strict_append {front back : List Turn}
    (hfront : ∀ turn ∈ front, turn.failure? = none)
    (hcalm : (playAll watch front s).status.stopRequested = false) :
    play watch true (front ++ back) s
      = play watch true back (playAll watch front s) := by
  induction front generalizing s with
  | nil => rfl
  | cons turn front ih =>
      have hgoes : s.status.stopRequested = false := calm_before hcalm
      rw [List.cons_append, play, hgoes, if_neg Bool.false_ne_true,
        if_pos rfl, hfront turn List.mem_cons_self]
      exact ih (fun t ht => hfront t (List.mem_cons_of_mem turn ht)) hcalm

/-- A strict run ends with the first failure, when that turn has been
carried out. -/
theorem play_strict {front back : List Turn} {turn : Turn} {cause : Error}
    (hfront : ∀ turn ∈ front, turn.failure? = none)
    (hturn : turn.failure? = some cause)
    (hcalm : (playAll watch front s).status.stopRequested = false) :
    play watch true (front ++ turn :: back) s
      = (turn.begun watch (playAll watch front s), .failed cause) := by
  rw [play_strict_append hfront hcalm, play, hcalm,
    if_neg Bool.false_ne_true, if_pos rfl, hturn]

-- ========================================================= rising counts

/-- The counts that were told since there were `low` items done with: they
never fall, and the last one is the count now. -/
structure Rising (low : Nat) (s : Session) : Prop where
  bounded : ∀ v ∈ values s.events, low ≤ v ∧ v ≤ s.status.completed
  sorted : (values s.events).Pairwise (· ≤ ·)
  last : (values s.events).getLast? = some s.status.completed
    ∨ (values s.events = [] ∧ s.status.completed = low)

namespace Rising

variable {low : Nat}

theorem low_le (h : Rising low s) : low ≤ s.status.completed := by
  rcases h.last with hlast | ⟨-, heq⟩
  · exact (h.bounded _ (List.mem_of_getLast? hlast)).1
  · exact Nat.le_of_eq heq.symm

/-- Only told counts matter. -/
theorem of_same {t : Session} (h : Rising low s)
    (hvalues : values t.events = values s.events)
    (hcompleted : t.status.completed = s.status.completed) :
    Rising low t := by
  obtain ⟨hbounded, hsorted, hlast⟩ := h
  rw [← hvalues, ← hcompleted] at hbounded hlast
  rw [← hvalues] at hsorted
  exact ⟨hbounded, hsorted, hlast⟩

theorem advance (h : Rising low s) (count : Nat) :
    Rising low (s.advance watch count) := by
  have hvalues : values (s.advance watch count).events
      = values s.events ++ [s.status.completed + count] := by
    show values (s.events ++ [_]) = _
    rw [values_append]
    rfl
  have hcompleted : (s.advance watch count).status.completed
      = s.status.completed + count := Session.completed_emit ..
  constructor
  case bounded =>
      intro v hv
      rw [hvalues] at hv
      rw [hcompleted]
      rcases List.mem_append.mp hv with hold | hnew
      · obtain ⟨hlow, hhigh⟩ := h.bounded v hold
        exact ⟨hlow, by omega⟩
      · have hlow := h.low_le
        rw [List.mem_singleton.mp hnew]
        exact ⟨by omega, Nat.le_refl _⟩
  case sorted =>
      rw [hvalues]
      refine List.pairwise_append.mpr ⟨h.sorted, by simp, ?_⟩
      intro v hv w hw
      rw [List.mem_singleton.mp hw]
      exact Nat.le_trans (h.bounded v hv).2 (Nat.le_add_right _ _)
  case last =>
      rw [hvalues, hcompleted]
      exact .inl (by simp)

end Rising

/-- The counts told in a run rise from the count in the beginning. -/
theorem rising_play {low : Nat} (strict : Bool) (h : Rising low s) :
    Rising low (play watch strict turns s).1 := by
  refine play_keeps watch strict ?_ ?_ h
  · intro turn _ s hs
    refine hs.of_same ?_ (turn.completed_begun watch s)
    show values (s.events ++ [turn.start]) = _
    rw [values_append]
    cases turn <;> exact List.append_nil _
  · intro turn _ s hs
    rcases turn with ⟨_, _ | total⟩ | _ | ⟨_, _ | _, _⟩
    · exact hs
    · refine hs.of_same ?_ (Session.completed_emit ..)
      show values (s.events ++ [.range total]) = _
      rw [values_append]
      exact List.append_nil _
    all_goals
      apply Rising.advance
      exact hs.of_same rfl rfl

-- ================================================================== runs

variable {x : Extractor} {total : Nat} {orders : List Order}
  {files : FileSystem} {status : Status}

/-- A tolerant extraction in which nobody asks to stop plays all turns. -/
theorem run_tolerant (htolerant : x.options.strict = false)
    (hcalm : (x.run watch total orders files
      status).1.status.stopRequested = false) :
    x.run watch total orders files status
      = (playAll watch (x.turns total files orders)
          (Session.beginning watch total files status), .finished) := by
  have hrun := x.run_eq_play watch total orders files status
  rw [htolerant] at hrun
  rw [hrun] at hcalm ⊢
  exact play_tolerant hcalm

/-- The counts told in an extraction rise from that of its status. -/
theorem rising_run :
    Rising status.completed (x.run watch total orders files status).1 := by
  rw [x.run_eq_play]
  apply rising_play
  constructor
  case bounded => exact fun v hv => nomatch hv
  case sorted => exact List.Pairwise.nil
  case last => exact .inr ⟨rfl, Session.completed_emit ..⟩

-- ============================================================== a sample

/-- An extractor that knows one container, with one file of two bytes. -/
def lonePack : Extractor where
  source _ name :=
    if name = "pack" then
      .ok ⟨"pack", .nexon, "", [⟨"one", 0, 2, 2, false, by decide⟩], 2,
        [7, 8], none⟩
    else .error (.file .missing)
  output := ⟨false, ["out"]⟩
  options := {}

/-- One of these is for what is there, one for another path, and one for
another container. -/
def threeRequests : List Request :=
  [⟨"stray", "one"⟩, ⟨"pack", "one"⟩, ⟨"pack", "two"⟩]

end GameArchive.Extraction
