/-
Strict runs as against tolerant ones.

Strictness has no part in what comes of a turn, so a strict extraction has
the very turns of a tolerant one. Up to the first turn that fails, both are
in the same states. There the strict one ends, with this turn carried out
and nothing noted of it, and the tolerant one goes on from the same state.

Main statement: `strict_extraction`.
-/
import GameArchive.Proofs.Extraction.Notes

namespace GameArchive.Extraction

open Package (Container Error)

-- ============================================================== strictness

namespace Extractor

/-- The same extractor, strict or not. -/
def strictly (x : Extractor) (strict : Bool) : Extractor :=
  { x with options := { x.options with strict := strict } }

variable (x : Extractor) (strict : Bool)

/-- Strictness has no part in what comes of an item. -/
theorem itemTurns_strictly (c : Container) (files : FileSystem)
    (items : List Order.Item) :
    (x.strictly strict).itemTurns c files items
      = x.itemTurns c files items := by
  induction items generalizing files with
  | nil => rfl
  | cons item rest ih => exact congrArg (_ :: ·) (ih _)

theorem orderTurns_strictly (total : Nat) (files : FileSystem)
    (order : Order) :
    (x.strictly strict).orderTurns total files order
      = x.orderTurns total files order := by
  unfold orderTurns
  have hsource : (x.strictly strict).source = x.source := rfl
  rw [hsource]
  cases x.source files order.container with
  | error cause => rfl
  | ok c => exact congrArg (_ :: ·) (x.itemTurns_strictly strict ..)

/-- Strict and tolerant runs have the same turns. -/
theorem turns_strictly (total : Nat) (files : FileSystem)
    (orders : List Order) :
    (x.strictly strict).turns total files orders
      = x.turns total files orders := by
  induction orders generalizing total files with
  | nil => rfl
  | cons order rest ih =>
      unfold turns
      simp only [orderTurns_strictly, ih]

end Extractor

-- ======================================================= the first failure

/-- How a strict run ends when `turn` is the first of its turns that fails,
beside a tolerant run from the same start: with this turn carried out, where
the tolerant run goes on. -/
structure CutShort (watch : Watcher) (start : Session) (done : List Turn)
    (turn : Turn) (rest : List Turn) (name : String) (cause : Error)
    (strict tolerant : Session × Ending) : Prop where
  clean : ∀ earlier ∈ done, earlier.note? = none
  fails : turn.note? = some (name, cause)
  ends : strict = (turn.begun watch (playAll watch done start), .failed cause)
  goesOn : tolerant
    = (playAll watch rest (turn.noted watch strict.1), .finished)
  files : strict.1.files = (done ++ [turn]).foldl Turn.after start.files
  events : strict.1.events <+: tolerant.1.events
  /-- These containers were opened and these items begun, and no others. -/
  marks : marks strict.1.events
    = marks start.events ++ (done ++ [turn]).map Turn.start
  written : strict.1.report.written = done.filterMap Turn.written?
  failures : strict.1.report.failures = []
  completed : strict.1.status.completed
    = start.status.completed + strict.1.report.written.length

/-- How a strict run goes beside a tolerant one with the same turns. -/
structure FollowsUntilFailure (watch : Watcher) (start : Session)
    (turns : List Turn) (strict tolerant : Session × Ending) : Prop where
  finished : tolerant.2 = .finished
  same : tolerant.1.report.failures = [] → strict = tolerant
  short : ∀ name cause more,
    tolerant.1.report.failures = (name, cause) :: more →
      ∃ done turn rest, turns = done ++ turn :: rest
        ∧ CutShort watch start done turn rest name cause strict tolerant

variable {watch : Watcher} {start : Session}

/-- A turn of which no failure is noted had none. -/
theorem failure?_of_clean {done : List Turn}
    (hclean : ∀ turn ∈ done, turn.note? = none) :
    ∀ turn ∈ done, turn.failure? = none := by
  intro turn hturn
  rw [turn.failure?_eq, hclean turn hturn]
  rfl

/-- A turn without a failure is done with what it has written. -/
theorem sizeOfTurns_of_clean {done : List Turn}
    (hclean : ∀ turn ∈ done, turn.note? = none) :
    sizeOfTurns done = (done.filterMap Turn.written?).length := by
  induction done with
  | nil => rfl
  | cons turn done ih =>
      have hfirst := hclean turn List.mem_cons_self
      have hrest := ih fun t ht => hclean t (List.mem_cons_of_mem turn ht)
      rcases turn with ⟨_, _⟩ | _ | ⟨_, _ | _, _⟩
      case refused => cases hfirst
      case item.error => cases hfirst
      case opened =>
          rw [sizeOfTurns, hrest]
          exact Nat.zero_add _
      case item.ok =>
          rw [sizeOfTurns, hrest]
          exact Nat.add_comm 1 _

/-- Turns that report nothing leave no failures. -/
theorem failures_of_clean {done : List Turn} (hstart : start.report = {})
    (hclean : ∀ turn ∈ done, turn.note? = none) :
    (playAll watch done start).report.failures = [] := by
  rw [failures_playAll, hstart, List.filterMap_eq_nil_iff.mpr hclean]
  rfl

/-- If the turns before one left no note and this one does, the strict run is
cut short there. -/
theorem cutShort {done : List Turn} {turn : Turn} {rest : List Turn}
    {name : String} {cause : Error} (hstart : start.report = {})
    (hclean : ∀ earlier ∈ done, earlier.note? = none)
    (hfails : turn.note? = some (name, cause))
    (hcalm : (playAll watch done start).status.stopRequested = false) :
    CutShort watch start done turn rest name cause
      (play watch true (done ++ turn :: rest) start)
      (playAll watch (done ++ turn :: rest) start, .finished) := by
  have hcause : turn.failure? = some cause := by
    rw [turn.failure?_eq, hfails]
    rfl
  have hwritten : (playAll watch done start).report.written
      = done.filterMap Turn.written? := by
    rw [written_playAll, hstart]
    rfl
  rw [play_strict (failure?_of_clean hclean) hcause hcalm, playAll_append]
  constructor
  case clean => exact hclean
  case fails => exact hfails
  case ends => rfl
  case goesOn => rfl
  case files =>
      rw [List.foldl_append, ← files_playAll]
      rfl
  case events =>
      exact (turn.events_noted watch _).trans (events_playAll ..)
  case marks =>
      rw [turn.marks_begun, marks_playAll, List.map_append,
        List.append_assoc]
      rfl
  case written => exact hwritten
  case failures => exact failures_of_clean hstart hclean
  case completed =>
      show (turn.begun watch _).status.completed
        = _ + (playAll watch done start).report.written.length
      rw [turn.completed_begun, completed_playAll, hwritten,
        sizeOfTurns_of_clean hclean]

/-- A strict run follows the tolerant one until it fails. -/
theorem followsUntilFailure {turns : List Turn} (hstart : start.report = {})
    (hcalm : (play watch false turns start).1.status.stopRequested
      = false) :
    FollowsUntilFailure watch start turns (play watch true turns start)
      (play watch false turns start) := by
  have htolerant := play_tolerant hcalm
  rw [htolerant] at hcalm ⊢
  constructor
  case finished => rfl
  case same =>
      intro hnone
      rw [failures_playAll] at hnone
      have hclean := List.filterMap_eq_nil_iff.mp
        (List.append_eq_nil_iff.mp hnone).2
      have hplayed : play watch true (turns ++ []) start
          = play watch true [] (playAll watch turns start) :=
        play_strict_append (failure?_of_clean hclean) hcalm
      rwa [List.append_nil] at hplayed
  case short =>
      intro name cause more hsome
      rw [failures_playAll, hstart] at hsome
      obtain ⟨done, turn, rest, rfl, hclean, hfails, -⟩ :=
        List.filterMap_eq_cons_iff.mp hsome
      refine ⟨done, turn, rest, rfl, cutShort hstart hclean hfails ?_⟩
      rw [playAll_append] at hcalm
      exact calm_before hcalm

-- ============================================================ extractions

/-- A strict run follows the tolerant one up to its first failure, if nobody
asked the tolerant one to stop. -/
theorem run_followsUntilFailure (x : Extractor) (watch : Watcher)
    (total : Nat) (orders : List Order) (files : FileSystem)
    (status : Status)
    (hcalm : ((x.strictly false).run watch total orders files
      status).1.status.stopRequested = false) :
    FollowsUntilFailure watch
      (Session.beginning watch total files status)
      (x.turns total files orders)
      ((x.strictly true).run watch total orders files status)
      ((x.strictly false).run watch total orders files status) := by
  rw [Extractor.run_eq_play, x.turns_strictly] at hcalm
  rw [Extractor.run_eq_play, Extractor.run_eq_play, x.turns_strictly,
    x.turns_strictly]
  exact followsUntilFailure rfl hcalm

/-- If nobody asks to stop, a strict extraction of either kind does what a
tolerant one does until that fails, and ends there. -/
theorem strict_extraction (x : Extractor) (watch : Watcher)
    (files : FileSystem) (status : Status) :
    (∀ requests,
      ((x.strictly false).extract watch requests files
          status).1.status.stopRequested = false →
        FollowsUntilFailure watch
          (Session.beginning watch requests.length files status)
          (x.turns requests.length files (Order.ofRequests requests))
          ((x.strictly true).extract watch requests files status)
          ((x.strictly false).extract watch requests files status))
      ∧ ∀ names,
        ((x.strictly false).extractContainers watch names files
            status).1.status.stopRequested = false →
          FollowsUntilFailure watch
            (Session.beginning watch 0 files status)
            (x.turns 0 files (Order.ofContainers names))
            ((x.strictly true).extractContainers watch names files status)
            ((x.strictly false).extractContainers watch names files
              status) := by
  constructor
  · intro requests hcalm
    exact run_followsUntilFailure x watch _ _ files status hcalm
  · intro names hcalm
    exact run_followsUntilFailure x watch _ _ files status hcalm

/-- The second of three requests fails: the strict run ends there, the tolerant
one reports two failures. -/
theorem strict_extraction_lonePack :
    FollowsUntilFailure .silent
        (Session.beginning .silent 3 (.empty "home") {})
        (lonePack.turns 3 (.empty "home") (Order.ofRequests threeRequests))
        ((lonePack.strictly true).extract .silent threeRequests
          (.empty "home") {})
        ((lonePack.strictly false).extract .silent threeRequests
          (.empty "home") {})
      ∧ ((lonePack.strictly true).extract .silent threeRequests
          (.empty "home") {}).2 = .failed (.entryNotFound "pack" "two")
      ∧ ((lonePack.strictly false).extract .silent threeRequests
          (.empty "home") {}).1.report.failures
        = [("two", .entryNotFound "pack" "two"),
          ("stray", .file .missing)] := by
  refine ⟨?_, by decide +kernel, by decide +kernel⟩
  exact (strict_extraction lonePack .silent (.empty "home") {}).1
    threeRequests (by decide +kernel)

end GameArchive.Extraction
