/-
Extractions that somebody asks to stop.

A request raises a flag, and nothing that happens depends on the flag: take
it away, and a run with requests is in the same states as the run without
any, as far as it goes. The flag is looked at before each turn and at no
other time, so it makes no difference when between two looks a request
comes. It cuts the turns in two, those that are played and those that are
left out; of the first ones all but the last were over when it came, and the
last had begun.

Main statement: `stopped_extraction`.
-/
import GameArchive.Proofs.Extraction.Accounts

namespace GameArchive.Extraction

-- ========================================================= without the flag

/-- The same status without the flag. -/
def Status.calmed (status : Status) : Status :=
  { status with stopRequested := false }

/-- The same session without the flag. -/
def Session.calmed (s : Session) : Session :=
  { s with status := s.status.calmed }

section

variable (watch : Watcher) (turn : Turn) (s : Session)

/-- An event is noted in the same way when nobody watches, but for the request
to stop. -/
theorem calmed_emit (event : Event) :
    (s.emit watch event).calmed = s.calmed.emit .silent event := by
  have hafter : (s.status.after event).calmed
      = s.status.calmed.after event := by
    cases event <;> rfl
  unfold Session.emit Session.calmed Status.requestStop
  dsimp only
  rw [← hafter]
  split <;> rfl

theorem calmed_begun :
    (turn.begun watch s).calmed = turn.begun .silent s.calmed := by
  show { (s.emit watch turn.start).calmed with
    files := turn.after s.files } = _
  rw [calmed_emit]
  rfl

theorem calmed_noted :
    (turn.noted watch s).calmed = turn.noted .silent s.calmed := by
  rcases turn with ⟨_, _ | _⟩ | _ | ⟨_, _ | _, _⟩
  · rfl
  all_goals exact calmed_emit ..

/-- Turns do the same, whoever asks to stop. -/
theorem calmed_playAll (turns : List Turn) :
    (playAll watch turns s).calmed = playAll .silent turns s.calmed := by
  induction turns generalizing s with
  | nil => rfl
  | cons turn turns ih =>
      show (playAll watch turns (turn.played watch s)).calmed
        = playAll .silent turns (turn.played .silent s.calmed)
      rw [ih, Turn.played, calmed_noted, calmed_begun]
      rfl

end

-- ============================================================ who has asked

/-- Whether somebody has asked to stop by the time that these events have
happened: before the run, or after some of them. -/
def Asked (watch : Watcher) (status : Status) (past : List Event) : Prop :=
  status.stopRequested = true
    ∨ ∃ seen, seen ≠ [] ∧ seen <+: past ∧ watch seen = true

/-- The flag of a session says whether somebody has asked. -/
def Heeds (watch : Watcher) (status : Status) (s : Session) : Prop :=
  s.status.stopRequested = true ↔ Asked watch status s.events

section

variable {watch : Watcher} {status : Status} {s : Session}

theorem Asked.mono {past later : List Event} (h : Asked watch status past)
    (hlater : past <+: later) : Asked watch status later := by
  rcases h with hbefore | ⟨seen, hne, hseen, hasks⟩
  · exact .inl hbefore
  · exact .inr ⟨seen, hne, hseen.trans hlater, hasks⟩

/-- With one event more, somebody has asked before it or asks at it. -/
theorem asked_concat_iff {past : List Event} {event : Event} :
    Asked watch status (past ++ [event])
      ↔ Asked watch status past ∨ watch (past ++ [event]) = true := by
  constructor
  · rintro (hbefore | ⟨seen, hne, hseen, hasks⟩)
    · exact .inl (.inl hbefore)
    · rcases List.prefix_concat_iff.mp hseen with rfl | hpast
      · exact .inr hasks
      · exact .inl (.inr ⟨seen, hne, hpast, hasks⟩)
  · rintro (hpast | hnow)
    · exact hpast.mono (List.prefix_append ..)
    · exact .inr ⟨_, by simp, List.prefix_rfl, hnow⟩

/-- The request stands after an event if it stood before or if the watcher makes
it now. -/
theorem stopRequested_emit_iff (watch : Watcher) (event : Event)
    (s : Session) :
    (s.emit watch event).status.stopRequested = true
      ↔ s.status.stopRequested = true
        ∨ watch (s.events ++ [event]) = true := by
  have hafter : (s.status.after event).stopRequested
      = s.status.stopRequested := by
    cases event <;> rfl
  unfold Session.emit Status.requestStop
  dsimp only
  split
  case isTrue hnow => simp [hnow]
  case isFalse hnow => simp [hnow, hafter]

/-- An event keeps the session in step with what the watcher asked for. -/
theorem Heeds.emit (h : Heeds watch status s) (event : Event) :
    Heeds watch status (s.emit watch event) := by
  unfold Heeds at h ⊢
  rw [stopRequested_emit_iff, h, Session.events_emit, asked_concat_iff]

theorem Heeds.played (h : Heeds watch status s) (turn : Turn) :
    Heeds watch status (turn.played watch s) := by
  have hbegun : Heeds watch status (turn.begun watch s) :=
    h.emit turn.start
  unfold Turn.played
  rcases turn with ⟨_, _ | _⟩ | _ | ⟨_, _ | _, _⟩
  · exact hbegun
  all_goals exact hbegun.emit _

/-- A session stays in step with its watcher over any turns. -/
theorem heeds_playAll (h : Heeds watch status s) (turns : List Turn) :
    Heeds watch status (playAll watch turns s) := by
  induction turns generalizing s with
  | nil => exact h
  | cons turn turns ih => exact ih (h.played turn)

/-- A run begins in step with its watcher. -/
theorem heeds_beginning (watch : Watcher) (total : Nat)
    (files : FileSystem) (status : Status) :
    Heeds watch status (Session.beginning watch total files status) := by
  refine Heeds.emit (s := { files := files, status := status }) ?_ _
  constructor
  · exact .inl
  · rintro (hbefore | ⟨seen, hne, hseen, -⟩)
    · exact hbefore
    · exact absurd (List.prefix_nil.mp hseen) hne

end

-- ================================================================= the cut

/-- How a tolerant run goes: it plays `done`, looking at the flag before each
of these turns, and leaves `left` out if it sees the flag then. -/
structure Cut (watch : Watcher) (start : Session) (done left : List Turn)
    (outcome : Session × Ending) : Prop where
  played : outcome.1 = playAll watch done start
  passed : ∀ front turn back, done = front ++ turn :: back →
    (playAll watch front start).status.stopRequested = false
  seen : left ≠ [] → outcome.1.status.stopRequested = true
  finished : left = [] → outcome.2 = .finished
  cancelled : left ≠ [] → outcome.2 = .cancelled

/-- A tolerant run is cut somewhere: turns that were played, and turns that were
left. -/
theorem exists_cut (watch : Watcher) (turns : List Turn) (s : Session) :
    ∃ done left, turns = done ++ left
      ∧ Cut watch s done left (play watch false turns s) := by
  induction turns generalizing s with
  | nil =>
      refine ⟨[], [], rfl, ?_⟩
      constructor
      case passed =>
          intro front turn back h
          exact absurd h.symm (by simp)
      case seen => exact fun h => absurd rfl h
      case cancelled => exact fun h => absurd rfl h
      all_goals intros; rfl
  | cons turn turns ih =>
      -- The flag is looked at before each turn: the cut is where it is up
      -- first.
      cases hstop : s.status.stopRequested with
      | true =>
          have hcut : play watch false (turn :: turns) s
              = (s, .cancelled) := by
            rw [play, if_pos hstop]
          refine ⟨[], turn :: turns, rfl, ?_⟩
          rw [hcut]
          constructor
          case played => rfl
          case passed =>
              intro front turn back h
              exact absurd h.symm (by simp)
          case seen => exact fun _ => hstop
          case finished =>
              intro h
              cases h
          case cancelled => exact fun _ => rfl
      | false =>
          obtain ⟨done, left, rfl, hcut⟩ := ih (turn.played watch s)
          have hgoes : play watch false (turn :: (done ++ left)) s
              = play watch false (done ++ left) (turn.played watch s) := by
            rw [play, hstop, if_neg Bool.false_ne_true]
            rfl
          refine ⟨turn :: done, left, rfl, ?_⟩
          rw [hgoes]
          constructor
          case played => exact hcut.played
          case passed =>
              intro front t back h
              cases front with
              | nil => exact hstop
              | cons first front =>
                  obtain ⟨rfl, hrest⟩ := List.cons.inj h
                  exact hcut.passed front t back hrest
          case seen => exact hcut.seen
          case finished => exact hcut.finished
          case cancelled => exact hcut.cancelled

/-- If somebody has asked by some time, all turns that are played were over
then, but for one that had begun. -/
theorem over_or_begun {watch : Watcher} {status : Status} {s : Session}
    {done : List Turn} (hheeds : Heeds watch status s)
    (hpassed : ∀ front turn back, done = front ++ turn :: back →
      (playAll watch front s).status.stopRequested = false)
    {past : List Event} (hs : s.events <+: past)
    (hpast : past <+: (playAll watch done s).events)
    (hasked : Asked watch status past) :
    ∃ ended : List Turn, ∃ last : Option Turn,
      done = ended ++ last.toList
        ∧ (playAll watch ended s).events <+: past
        ∧ ∀ turn ∈ last,
          (playAll watch ended s).events ++ [turn.start] <+: past := by
  induction done generalizing s with
  | nil => exact ⟨[], none, rfl, hs, fun turn h => nomatch h⟩
  | cons turn done ih =>
      have hgoes : s.status.stopRequested = false :=
        hpassed [] turn done rfl
      have hheeds' := hheeds.played turn
      have hlater : (turn.played watch s).events
          <+: (playAll watch (turn :: done) s).events := events_playAll ..
      rcases List.prefix_or_prefix_of_prefix hpast hlater with
        hduring | hafter
      case inr =>
          obtain ⟨ended, last, rfl, hended, hlast⟩ := ih hheeds'
            (fun front t back h =>
              hpassed (turn :: front) t back (congrArg _ h))
            hafter hpast
          exact ⟨turn :: ended, last, rfl, hended, hlast⟩
      case inl =>
          -- The flag is up by the end of this turn, so it is the last one.
          have hraised := hheeds'.mpr (hasked.mono hduring)
          have hdone : done = [] := by
            cases done with
            | nil => rfl
            | cons next done =>
                have hlow : (turn.played watch s).status.stopRequested
                    = false := hpassed [turn] next done rfl
                rw [hraised] at hlow
                cases hlow
          subst hdone
          refine ⟨[], some turn, rfl, hs, ?_⟩
          intro t ht
          obtain rfl : turn = t := Option.some.inj ht
          have hbegun : s.events ++ [turn.start]
              <+: (turn.played watch s).events :=
            turn.events_noted watch (turn.begun watch s)
          rcases List.prefix_or_prefix_of_prefix hbegun hduring with
            h | h
          · exact h
          rcases List.prefix_concat_iff.mp h with heq | hold
          · exact heq ▸ List.prefix_rfl
          · have hsame := hheeds.mpr (hasked.mono hold)
            rw [hgoes] at hsame
            cases hsame

-- ============================================================ clean cuts

/-- How a run goes that somebody asks to stop, beside the same run that
nobody stops: `done` are the turns that it plays, and `left` those that it
leaves out. -/
structure CleanCut (watch : Watcher) (status : Status) (start : Session)
    (done left : List Turn) (stopped whole : Session × Ending) : Prop where
  whole_eq : whole
    = (playAll .silent (done ++ left) start.calmed, .finished)
  stopped_eq : stopped.1.calmed = playAll .silent done start.calmed
  written : stopped.1.report.written <+: whole.1.report.written
  failures : stopped.1.report.failures <+: whole.1.report.failures
  loads : loads stopped.1.events <+: loads whole.1.events
  /-- What is left out are containers that would have been opened and items
  that would have been extracted. -/
  undone : marks whole.1.events
    = marks stopped.1.events ++ left.map Turn.start
  cancelled : stopped.2 = .cancelled ↔ left ≠ []
  asked : stopped.2 = .cancelled → Asked watch status stopped.1.events
  same : stopped.2 ≠ .cancelled →
    stopped.2 = .finished ∧ stopped.1.calmed = whole.1
  /-- When somebody has asked, all that is ever begun has begun, and of it
  all is over but for one turn. -/
  late : ∀ past, start.events <+: past → past <+: stopped.1.events →
    Asked watch status past →
      ∃ ended : List Turn, ∃ last : Option Turn,
        done = ended ++ last.toList
          ∧ (playAll watch ended start).events <+: past
          ∧ ∀ turn ∈ last,
            (playAll watch ended start).events ++ [turn.start] <+: past

/-- What is played up to the cut is what the undisturbed run plays there, and
the run is cancelled exactly if turns are left. -/
theorem Cut.clean {watch : Watcher} {status : Status} {start : Session}
    {done left : List Turn} {stopped : Session × Ending}
    (hheeds : Heeds watch status start)
    (h : Cut watch start done left stopped) :
    CleanCut watch status start done left stopped
      (playAll .silent (done ++ left) start.calmed, .finished) := by
  have hplayed : stopped.1.calmed = playAll .silent done start.calmed := by
    rw [h.played, calmed_playAll]
  -- The whole run goes on from where the stopped one has ended.
  have hwhole : playAll .silent (done ++ left) start.calmed
      = playAll .silent left stopped.1.calmed := by
    rw [playAll_append, hplayed]
  have hcancelled : stopped.2 = .cancelled ↔ left ≠ [] := by
    refine ⟨fun hending hnone => ?_, h.cancelled⟩
    rw [h.finished hnone] at hending
    cases hending
  have hmarks : marks (playAll .silent (done ++ left) start.calmed).events
      = marks stopped.1.events ++ left.map Turn.start := by
    rw [hwhole]
    exact marks_playAll ..
  constructor
  case whole_eq => rfl
  case stopped_eq => exact hplayed
  case written =>
      rw [hwhole, written_playAll]
      exact List.prefix_append ..
  case failures =>
      rw [hwhole, failures_playAll]
      exact List.prefix_append ..
  case loads =>
      rw [← loads_marks, ← loads_marks (playAll ..).events, hmarks]
      exact (List.prefix_append ..).filterMap _
  case undone => exact hmarks
  case cancelled => exact hcancelled
  case asked =>
      intro hending
      have hraised := h.seen (hcancelled.mp hending)
      rw [h.played] at hraised ⊢
      exact (heeds_playAll hheeds done).mp hraised
  case same =>
      intro hending
      have hnone : left = [] :=
        Classical.byContradiction fun hne => hending (h.cancelled hne)
      refine ⟨h.finished hnone, ?_⟩
      rw [hwhole, hnone]
      rfl
  case late =>
      intro past hstart hpast hasked
      rw [h.played] at hpast
      exact over_or_begun hheeds h.passed hstart hpast hasked

-- ============================================================ extractions

/-- Nobody ever asks a calm run to stop. -/
theorem not_asked_silent {status : Status} {past : List Event} :
    ¬ Asked .silent status.calmed past := by
  rintro (hbefore | ⟨seen, -, -, hasks⟩)
  · cases hbefore
  · cases hasks

/-- If nobody asks to stop, all turns are played. -/
theorem play_silent {status : Status} {s : Session}
    (hheeds : Heeds .silent status.calmed s) (turns : List Turn) :
    play .silent false turns s = (playAll .silent turns s, .finished) := by
  obtain ⟨done, left, rfl, hcut⟩ := exists_cut .silent turns s
  have hnone : left = [] := by
    refine Classical.byContradiction fun hne => ?_
    have hraised := hcut.seen hne
    rw [hcut.played] at hraised
    exact not_asked_silent ((heeds_playAll hheeds done).mp hraised)
  have hsession := hcut.played
  have hending := hcut.finished hnone
  rw [hnone, List.append_nil] at *
  exact Prod.ext hsession hending

/-- A tolerant extraction is cut cleanly. -/
theorem run_cleanCut {x : Extractor} (htolerant : x.options.strict = false)
    (watch : Watcher) (total : Nat) (orders : List Order)
    (files : FileSystem) (status : Status) :
    ∃ done left, x.turns total files orders = done ++ left
      ∧ CleanCut watch status (Session.beginning watch total files status)
        done left (x.run watch total orders files status)
        (x.run .silent total orders files status.calmed) := by
  have hbeginning : (Session.beginning watch total files status).calmed
      = Session.beginning .silent total files status.calmed :=
    calmed_emit watch _ (.range total)
  obtain ⟨done, left, hturns, hcut⟩ := exists_cut watch
    (x.turns total files orders) (Session.beginning watch total files status)
  refine ⟨done, left, hturns, ?_⟩
  rw [x.run_eq_play, x.run_eq_play, htolerant,
    play_silent (heeds_beginning ..), ← hbeginning]
  rw [hturns] at hcut ⊢
  exact hcut.clean (heeds_beginning ..)

-- ====================================================== requests left out

/-- Turns that do not end before an item is done with. -/
def EndWithItem (turns : List Turn) : Prop :=
  ∀ turn ∈ turns.getLast?, 0 < turn.size

/-- Turns that end with an item, followed by others that do, end with an
item. -/
theorem EndWithItem.append {front back : List Turn}
    (hfront : EndWithItem front) (hback : EndWithItem back) :
    EndWithItem (front ++ back) := by
  intro turn hturn
  rw [List.getLast?_append] at hturn
  cases hlast : back.getLast? with
  | none =>
      rw [hlast] at hturn
      exact hfront turn hturn
  | some last =>
      rw [hlast] at hturn
      exact hback turn (hlast ▸ hturn)

/-- If any of such turns are left, there is something left to count. -/
theorem EndWithItem.size_pos {done left : List Turn}
    (h : EndWithItem (done ++ left)) (hleft : left ≠ []) :
    0 < sizeOfTurns left := by
  obtain ⟨front, last, rfl⟩ :=
    (List.eq_nil_or_concat left).resolve_left hleft
  have hlast : 0 < last.size := h last (by simp)
  rw [List.concat_eq_append, sizeOfTurns_append, sizeOfTurns]
  omega

/-- The turns of an order that names items end with an item, or with the refusal
of its container. -/
theorem orderTurns_endWithItem (x : Extractor) {order : Order}
    {paths : List String} (hwanted : order.wanted = some paths)
    (hpaths : paths ≠ []) (total : Nat) (files : FileSystem) :
    EndWithItem (x.orderTurns total files order) := by
  intro turn hturn
  unfold Extractor.orderTurns at hturn
  cases hsource : x.source files order.container with
  | error cause =>
      rw [hsource] at hturn
      obtain rfl := Option.some.inj hturn
      show 0 < order.size
      rw [Order.size, hwanted]
      exact List.length_pos_iff.mpr hpaths
  | ok c =>
      obtain ⟨outcomes, hturns, hnames, -⟩ :=
        x.itemTurns_eq_map c (order.items c) files
      rw [items_path hwanted] at hnames
      obtain ⟨front, last, rfl⟩ :=
        (List.eq_nil_or_concat outcomes).resolve_left fun hnone =>
          hpaths (by rw [← hnames, hnone]; rfl)
      rw [hsource] at hturn
      dsimp only at hturn
      rw [hturns] at hturn
      obtain rfl : Turn.item last.1 last.2.1 last.2.2 = turn := by
        simpa [List.getLast?_cons] using hturn
      exact Nat.one_pos

theorem turns_endWithItem (x : Extractor) {orders : List Order}
    (hwanted : ∀ order ∈ orders,
      ∃ paths, order.wanted = some paths ∧ paths ≠ [])
    (total : Nat) (files : FileSystem) :
    EndWithItem (x.turns total files orders) := by
  induction orders generalizing total files with
  | nil => exact fun turn hturn => nomatch hturn
  | cons order rest ih =>
      obtain ⟨paths, hpaths, hne⟩ := hwanted order List.mem_cons_self
      refine (orderTurns_endWithItem x hpaths hne total files).append ?_
      exact ih (fun o ho => hwanted o (List.mem_cons_of_mem order ho)) _ _

/-- An order wants something of its container. -/
theorem exists_wanted {requests : List Request} {order : Order}
    (h : order ∈ Order.ofRequests requests) :
    ∃ paths, order.wanted = some paths ∧ paths ≠ [] := by
  refine ⟨_, Order.wanted_of_mem h, fun hnone => ?_⟩
  refine pathsOf_eq_nil_iff.mp hnone ?_
  rw [← Order.container_mem_ofRequests]
  exact List.mem_map_of_mem h

/-- Turns are left out exactly if requests are. -/
theorem CleanCut.left_ne_nil_iff {x : Extractor} {watch : Watcher}
    {requests : List Request} {files : FileSystem} {status : Status}
    {done left : List Turn} {stopped whole : Session × Ending}
    (hturns : x.turns requests.length files (Order.ofRequests requests)
      = done ++ left)
    (h : CleanCut watch status
      (Session.beginning watch requests.length files status) done left
      stopped whole) :
    left ≠ [] ↔ stopped.1.status.completed
      < status.completed + requests.length := by
  have hwanted : ∀ order ∈ Order.ofRequests requests,
      ∃ paths, order.wanted = some paths ∧ paths ≠ [] :=
    fun order horder => exists_wanted horder
  have hends := turns_endWithItem x hwanted requests.length files
  obtain ⟨accounts, hsettled⟩ := x.turns_settled
    (fun order horder => ⟨_, Order.wanted_of_mem horder⟩)
    requests.length files
  have htotal := hsettled.size
  rw [Order.sizeOfOrders_ofRequests, hturns, sizeOfTurns_append] at htotal
  rw [hturns] at hends
  have hcompleted : stopped.1.status.completed
      = status.completed + sizeOfTurns done := by
    have hbeginning : (Session.beginning watch requests.length files
        status).status.completed = status.completed :=
      Session.completed_emit ..
    show stopped.1.calmed.status.completed = _
    rw [h.stopped_eq, completed_playAll, ← hbeginning]
    rfl
  constructor
  · intro hleft
    have hpos := hends.size_pos hleft
    omega
  · rintro hless rfl
    rw [sizeOfTurns] at htotal
    omega

/-- However and whenever somebody asks to stop, a tolerant extraction of
either kind is cut cleanly. One of requests is cancelled exactly if it is not
done with all of them. -/
theorem stopped_extraction (x : Extractor) (watch : Watcher)
    (files : FileSystem) (status : Status)
    (htolerant : x.options.strict = false) :
    (∀ requests, ∃ done left,
      x.turns requests.length files (Order.ofRequests requests)
          = done ++ left
        ∧ CleanCut watch status
          (Session.beginning watch requests.length files status) done left
          (x.extract watch requests files status)
          (x.extract .silent requests files status.calmed)
        ∧ ((x.extract watch requests files status).2 = .cancelled
          ↔ (x.extract watch requests files status).1.status.completed
            < status.completed + requests.length))
      ∧ ∀ names, ∃ done left,
        x.turns 0 files (Order.ofContainers names) = done ++ left
          ∧ CleanCut watch status
            (Session.beginning watch 0 files status) done left
            (x.extractContainers watch names files status)
            (x.extractContainers .silent names files status.calmed) := by
  constructor
  · intro requests
    obtain ⟨done, left, hturns, hcut⟩ := run_cleanCut htolerant watch
      requests.length (Order.ofRequests requests) files status
    refine ⟨done, left, hturns, hcut, ?_⟩
    exact hcut.cancelled.trans (hcut.left_ne_nil_iff hturns)
  · intro names
    exact run_cleanCut htolerant watch 0 (Order.ofContainers names) files
      status

/-- Somebody asks to stop while the first item is being extracted. -/
theorem stopped_extraction_lonePack :
    let watch : Watcher := fun events => events.getLast? = some (.item "one")
    lonePack.options.strict = false
      ∧ (∃ done left,
        lonePack.turns 3 (.empty "home") (Order.ofRequests threeRequests)
            = done ++ left
          ∧ CleanCut watch {} (Session.beginning watch 3 (.empty "home") {})
            done left
            (lonePack.extract watch threeRequests (.empty "home") {})
            (lonePack.extract .silent threeRequests (.empty "home") {}))
      ∧ (lonePack.extract watch threeRequests (.empty "home") {}).2
        = .cancelled
      ∧ (lonePack.extract watch threeRequests (.empty "home") {}).1.report
        = ⟨[["one"]], []⟩ := by
  intro watch
  refine ⟨rfl, ?_, by decide +kernel, by decide +kernel⟩
  obtain ⟨done, left, hturns, hcut, -⟩ :=
    (stopped_extraction lonePack watch (.empty "home") {} rfl).1
      threeRequests
  exact ⟨done, left, hturns, hcut⟩

end GameArchive.Extraction
