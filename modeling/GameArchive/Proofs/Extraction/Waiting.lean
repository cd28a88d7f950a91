/-
What the waiting side passes on.

The job may go on between any two steps of the waiting side. What is passed
on is therefore what is read at some moments of the job, each count at a
moment not before that of the last one.

That the job had ended is known before the last count is read, so this count
is the last that there is. The invariant keeps, for each stage of the waiting
side, the moments of all earlier looks and what is known of the one that goes
on; it is shown of single steps of either side, and so holds in any order of
them. If neither side is left waiting for ever, the job comes to its end, and
then the waiting side does.

Main statements: `Knows.step`, `wait_reports`.
-/
import GameArchive.Extraction.Waiter
import GameArchive.Proofs.Extraction.Worker

namespace GameArchive.Extraction.Job

-- ================================================================= notices

/-- The counts that were passed on. -/
def counts (notices : List Notice) : List Nat :=
  notices.filterMap fun
    | .progress completed => some completed
    | _ => none

theorem counts_append (front back : List Notice) :
    counts (front ++ back) = counts front ++ counts back :=
  List.filterMap_append ..

theorem counts_labelNotice (shown current : Option String) :
    counts (labelNotice shown current) = [] := by
  unfold labelNotice
  cases current with
  | none => rfl
  | some item =>
      dsimp only
      split <;> rfl

/-- The last item that was passed on after looks, when `shown` was the last
before them. -/
def shownAfter (before : Status) (events : List Event) :
    (shown : Option String) → List Poll → Option String
  | shown, [] => shown
  | shown, poll :: rest =>
    shownAfter before events
      ((statusAfter before (events.take poll.currentAfter)).current.or shown)
      rest

variable (before : Status) (events : List Event)

/-- What one more look adds. -/
theorem notices_concat (shown : Option String) (polls : List Poll)
    (poll : Poll) :
    notices before events shown (polls ++ [poll])
      = notices before events shown polls
        ++ .progress
            (statusAfter before (events.take poll.countAfter)).completed
          :: labelNotice (shownAfter before events shown polls)
            (statusAfter before (events.take poll.currentAfter)).current := by
  induction polls generalizing shown with
  | nil => simp [notices, shownAfter]
  | cons first rest ih =>
      rw [List.cons_append, notices, notices, ih, shownAfter]
      simp

/-- One more look shows the item that it finds, or what was shown before if
there is none. -/
theorem shownAfter_concat (shown : Option String) (polls : List Poll)
    (poll : Poll) :
    shownAfter before events shown (polls ++ [poll])
      = (statusAfter before (events.take poll.currentAfter)).current.or
          (shownAfter before events shown polls) := by
  induction polls generalizing shown with
  | nil => rfl
  | cons first rest ih => exact ih _

-- =============================================================== invariant

section

variable (total : Nat) (status : Status) (final : Session × Ending)

/-- What was passed on after looks at a job that is bound for an outcome. -/
def passed (polls : List Poll) : List Notice :=
  .range total :: notices status final.1.events none polls

/-- What the waiting side knows at each stage: it has looked at the job at
some moments, and if it has seen that the job had ended, then so it has, and
the count that was read since is the last. -/
inductive Looked (worker : Worker) : Waiter → Prop
  | asking (polls : List Poll) :
      Looked worker ⟨.asking, shownAfter status final.1.events none polls,
        passed total status final polls⟩
  | counting {ended : Bool} (polls : List Poll)
      (hended : ended = true → worker.isOver = true) :
      Looked worker ⟨.counting ended,
        shownAfter status final.1.events none polls,
        passed total status final polls⟩
  | naming {ended : Bool} (polls : List Poll) (countAfter : Nat)
      (hended : ended = true → worker.isOver = true
        ∧ countAfter = final.1.events.length) :
      Looked worker ⟨.naming ended,
        shownAfter status final.1.events none polls,
        passed total status final polls
          ++ [.progress (statusAfter status
            (final.1.events.take countAfter)).completed]⟩
  | joining (polls : List Poll) (shown : Option String)
      (hended : worker.isOver = true) :
      Looked worker ⟨.joining, shown, passed total status final
        (polls ++ [lastPoll final.1.events])⟩
  | returned (polls : List Poll) (shown : Option String) :
      Looked worker ⟨.returned final, shown, passed total status final
        (polls ++ [lastPoll final.1.events])⟩

/-- What is read of the count and then of the current item makes a look. -/
theorem passed_look (polls : List Poll) (countAfter currentAfter : Nat) :
    passed total status final polls
        ++ [.progress (statusAfter status
          (final.1.events.take countAfter)).completed]
        ++ labelNotice (shownAfter status final.1.events none polls)
          (statusAfter status (final.1.events.take currentAfter)).current
      = passed total status final
          (polls ++ [⟨countAfter, currentAfter⟩]) := by
  rw [passed, passed, notices_concat, List.append_assoc, List.cons_append]
  rfl

end

section

variable {total : Nat} {status : Status} {final : Session × Ending}
  {worker : Worker} {watch : Watcher} {strict : Bool}

/-- What is read of a job is its status at one of the moments of what it is
bound for. -/
theorem take_events (hbound : worker.outcome watch strict = final) :
    final.1.events.take worker.session.events.length
      = worker.session.events := by
  rw [← hbound]
  exact (List.prefix_iff_eq_take.mp
    (worker.events_outcome watch strict)).symm

/-- A job that has ended is at the last of its moments. -/
theorem length_events (hbound : worker.outcome watch strict = final)
    (hover : worker.isOver = true) :
    worker.session.events.length = final.1.events.length := by
  obtain ⟨ending, heq⟩ := Worker.eq_ended hover
  rw [heq] at hbound ⊢
  rw [← hbound]
  rfl

/-- A step of the job takes away nothing of what the waiting side knows. -/
theorem Looked.worker_step {w : Waiter}
    (h : Looked total status final worker w) :
    Looked total status final (worker.step watch strict) w := by
  have hstays (hover : worker.isOver = true) :
      (worker.step watch strict).isOver = true := by
    rw [Worker.step_of_isOver watch strict hover]
    exact hover
  cases h with
  | asking polls => exact .asking polls
  | counting polls hended => exact .counting polls fun h => hstays (hended h)
  | naming polls countAfter hended =>
      exact .naming polls countAfter fun h =>
        ⟨hstays (hended h).1, (hended h).2⟩
  | joining polls shown hended => exact .joining polls shown (hstays hended)
  | returned polls shown => exact .returned polls shown

/-- A step of the waiting side leads from what it knows at one stage to what it
knows at the next. -/
theorem Looked.waiter_step (hbound : worker.outcome watch strict = final)
    (htells : worker.session.Tells status) {w : Waiter}
    (h : Looked total status final worker w) :
    Looked total status final worker (w.step worker) := by
  have hcompleted : worker.session.status.completed = (statusAfter status
      (final.1.events.take worker.session.events.length)).completed := by
    rw [take_events hbound]
    exact htells.completed_eq
  have hcurrent : worker.session.status.current = (statusAfter status
      (final.1.events.take worker.session.events.length)).current := by
    rw [take_events hbound]
    exact htells.current_eq
  cases h with
  | asking polls => exact .counting polls id
  | @counting ended polls hended =>
      rw [Waiter.step]
      dsimp only
      rw [hcompleted]
      exact .naming polls _ fun h =>
        ⟨hended h, length_events hbound (hended h)⟩
  | @naming ended polls countAfter hended =>
      rw [Waiter.step]
      dsimp only
      rw [hcurrent]
      -- the look is complete, and joins the earlier ones
      cases ended with
      | false =>
          rw [passed_look, ← shownAfter_concat status final.1.events none
            polls ⟨countAfter, worker.session.events.length⟩]
          exact .asking _
      | true =>
          obtain ⟨hover, hcount⟩ := hended rfl
          rw [hcount, length_events hbound hover, passed_look]
          exact .joining polls _ hover
  | joining polls shown hended =>
      obtain ⟨ending, heq⟩ := Worker.eq_ended hended
      have hresult : worker.result? = some final := by
        rw [heq] at hbound ⊢
        exact congrArg some hbound
      rw [Waiter.step]
      dsimp only
      rw [hresult]
      exact .returned polls shown
  | returned polls shown => exact .returned polls shown

/-- Who has returned has the outcome of the job, and has looked a last time
after its end. -/
theorem Looked.of_returned {w : Waiter}
    (h : Looked total status final worker w) {outcome : Session × Ending}
    (hreturned : w.stage = .returned outcome) :
    outcome = final ∧ ∃ polls, w.notices
      = passed total status final (polls ++ [lastPoll final.1.events]) := by
  cases h with
  | returned polls shown =>
      cases hreturned
      exact ⟨rfl, polls, rfl⟩
  | _ => cases hreturned

/-- The last count that is passed on is that of all events. -/
theorem getLast?_counts_passed (polls : List Poll) :
    (counts (passed total status final
        (polls ++ [lastPoll final.1.events]))).getLast?
      = some (statusAfter status final.1.events).completed := by
  rw [lastPoll, ← passed_look, counts_append, counts_append,
    counts_labelNotice, List.append_nil, List.take_length]
  exact List.getLast?_concat

end

-- ==================================================================== runs

section

variable {x : Extractor} {watch : Watcher} {requests : List Request}
  {files : FileSystem} {status : Status}

/-- What holds of both sides at every moment. -/
structure Knows (x : Extractor) (watch : Watcher) (requests : List Request)
    (files : FileSystem) (status : Status) (pair : Pair) : Prop where
  bound : pair.worker.outcome watch x.options.strict
    = x.extract watch requests files status
  tells : pair.worker.session.Tells status
  looked : Looked requests.length status
    (x.extract watch requests files status) pair.worker pair.waiter
  bounded : ∀ v ∈ counts pair.waiter.notices,
    v ≤ pair.worker.session.status.completed
  sorted : (counts pair.waiter.notices).Pairwise (· ≤ ·)

/-- In the beginning nobody has looked yet. -/
theorem knows_initial :
    Knows x watch requests files status
      (.initial x watch requests files status) where
  bound := (x.run_eq_play ..).symm
  tells := tells_beginning ..
  looked := .asking []
  bounded := fun _ hv => nomatch hv
  sorted := List.Pairwise.nil

/-- The counts that the waiting side has passed on after a step: those
before, and the count now if it has read it. -/
theorem counts_step (worker : Worker) (w : Waiter) :
    counts (w.step worker).notices = counts w.notices
      ∨ counts (w.step worker).notices
        = counts w.notices ++ [worker.session.status.completed] := by
  obtain ⟨stage, shown, notices⟩ := w
  cases stage with
  | asking => exact .inl rfl
  | counting ended => exact .inr (counts_append ..)
  | naming ended =>
      refine .inl ((counts_append ..).trans ?_)
      rw [counts_labelNotice, List.append_nil]
  | joining =>
      rw [Waiter.step]
      dsimp only
      split <;> exact .inl rfl
  | returned outcome => exact .inl rfl

/-- Whoever takes the next step, what is known of the two sides stays true. -/
theorem Knows.step {pair : Pair} (h : Knows x watch requests files status pair)
    (side : Side) :
    Knows x watch requests files status (pair.step x watch side) := by
  obtain ⟨hbound, htells, hlooked, hbounded, hsorted⟩ := h
  cases side with
  | worker =>
      refine ⟨?_, ?_, hlooked.worker_step, ?_, hsorted⟩
      · exact (pair.worker.outcome_step ..).trans hbound
      · exact Worker.tells_step watch x.options.strict htells
      · intro v hv
        exact Nat.le_trans (hbounded v hv)
          (pair.worker.completed_le_step watch x.options.strict)
  | waiter =>
      have hlater := hlooked.waiter_step hbound htells
      rcases counts_step pair.worker pair.waiter with heq | heq
      · refine ⟨hbound, htells, hlater, ?_, ?_⟩
        · exact heq ▸ hbounded
        · exact heq ▸ hsorted
      · refine ⟨hbound, htells, hlater, fun v hv => ?_, ?_⟩
        · rcases List.mem_append.mp (heq ▸ hv) with hold | hnew
          · exact hbounded v hold
          · exact Nat.le_of_eq (List.mem_singleton.mp hnew)
        · show (counts (pair.waiter.step pair.worker).notices).Pairwise _
          rw [heq]
          refine List.pairwise_append.mpr
            ⟨hsorted, List.pairwise_singleton .., fun v hv w hw => ?_⟩
          rw [List.mem_singleton.mp hw]
          exact hbounded v hv

/-- What is known of the two sides is true after any number of steps of any
schedule. -/
theorem knows_after (schedule : Nat → Side) (n : Nat) :
    Knows x watch requests files status
      (.after x watch requests files status schedule n) := by
  induction n with
  | zero => exact knows_initial
  | succ n ih => exact ih.step (schedule n)

-- ================================================================= the end

/-- How many steps the waiting side has left when the job has ended. -/
def Waiter.left (w : Waiter) : Nat :=
  match w.stage with
  | .counting false => 6
  | .naming false => 5
  | .asking => 4
  | .counting true => 3
  | .naming true => 2
  | .joining => 1
  | .returned _ => 0

/-- When the job has ended, every step of the waiting side is one less that it
has left. -/
theorem Waiter.left_step {worker : Worker} (hover : worker.isOver = true)
    {w : Waiter} (h : w.left ≠ 0) : (w.step worker).left < w.left := by
  obtain ⟨stage, shown, notices⟩ := w
  cases stage with
  | asking =>
      rw [step]
      dsimp only
      rw [hover]
      exact Nat.lt_succ_self 3
  | counting ended => cases ended <;> exact Nat.lt_succ_self _
  | naming ended => cases ended <;> exact Nat.lt_succ_self _
  | joining =>
      obtain ⟨ending, heq⟩ := Worker.eq_ended hover
      rw [heq]
      exact Nat.zero_lt_one
  | returned outcome => exact absurd rfl h

theorem Waiter.returned_of_left {w : Waiter} (h : w.left = 0) :
    ∃ outcome, w.stage = .returned outcome := by
  obtain ⟨stage, shown, notices⟩ := w
  cases stage with
  | returned outcome => exact ⟨outcome, rfl⟩
  | counting ended => cases ended <;> cases h
  | naming ended => cases ended <;> cases h
  | _ => cases h

/-- Neither side is left waiting for ever. -/
def Fair (schedule : Nat → Side) : Prop :=
  ∀ side n, ∃ m, n ≤ m ∧ schedule m = side

/-- What never grows, and shrinks with certain steps as long as something of
it is left, is used up if those steps are taken again and again. -/
theorem exists_eq_zero {f : Nat → Nat} {p : Nat → Prop}
    (hoften : ∀ n, ∃ m, n ≤ m ∧ p m) (start : Nat)
    (hstep : ∀ n, start ≤ n → f n ≠ 0 →
      f (n + 1) ≤ f n ∧ (p n → f (n + 1) < f n)) :
    ∃ n, start ≤ n ∧ f n = 0 := by
  induction hsize : f start using Nat.strongRecOn generalizing start with
  | ind size ih =>
      -- as long as something is left, the next such step leaves less
      by_cases hdone : ∃ n, start ≤ n ∧ f n = 0
      · exact hdone
      have hsome : ∀ n, start ≤ n → f n ≠ 0 :=
        fun n hn hzero => hdone ⟨n, hn, hzero⟩
      have hdown : ∀ m, start ≤ m → f m ≤ size := by
        intro m hm
        induction hm with
        | refl => exact Nat.le_of_eq hsize
        | step hle ihle =>
            exact Nat.le_trans (hstep _ hle (hsome _ hle)).1 ihle
      obtain ⟨m, hm, hp⟩ := hoften start
      have hless : f (m + 1) < size :=
        Nat.lt_of_lt_of_le ((hstep m hm (hsome m hm)).2 hp) (hdown m hm)
      obtain ⟨n, hn, hzero⟩ :=
        ih _ hless (m + 1) (fun n hn => hstep n (by omega)) rfl
      exact ⟨n, by omega, hzero⟩

section

variable {schedule : Nat → Side} (hfair : Fair schedule) {run : Nat → Pair}
  (hrun : ∀ n, run (n + 1) = (run n).step x watch (schedule n))

include hfair hrun

/-- The job comes to its end. -/
theorem worker_ends : ∃ n, (run n).worker.isOver = true := by
  obtain ⟨n, -, hn⟩ := exists_eq_zero (f := fun n => (run n).worker.left)
    (hfair .worker) 0 fun n _ hleft => by
      rw [hrun]
      cases schedule n with
      | waiter => exact ⟨Nat.le_refl _, fun h => nomatch h⟩
      | worker =>
          have hless := Worker.left_step watch x.options.strict hleft
          exact ⟨Nat.le_of_lt hless, fun _ => hless⟩
  exact ⟨n, Worker.isOver_iff.mpr hn⟩

/-- When the job has come to its end, the waiting side does. -/
theorem waiter_returns :
    ∃ n outcome, (run n).waiter.stage = .returned outcome := by
  obtain ⟨start, hstart⟩ := worker_ends hfair hrun
  have hover : ∀ n, start ≤ n → (run n).worker.isOver = true := by
    intro n hn
    induction hn with
    | refl => exact hstart
    | @step n hn ih =>
        show (run (n + 1)).worker.isOver = true
        rw [hrun]
        cases schedule n with
        | waiter => exact ih
        | worker =>
            show ((run n).worker.step watch x.options.strict).isOver = true
            rw [Worker.step_of_isOver watch x.options.strict ih]
            exact ih
  obtain ⟨n, -, hn⟩ := exists_eq_zero (f := fun n => (run n).waiter.left)
    (hfair .waiter) start fun n hn hleft => by
      rw [hrun]
      cases schedule n with
      | worker => exact ⟨Nat.le_refl _, fun h => nomatch h⟩
      | waiter =>
          have hless := Waiter.left_step (hover n hn) hleft
          exact ⟨Nat.le_of_lt hless, fun _ => hless⟩
  exact ⟨n, Waiter.returned_of_left hn⟩

end

-- ============================================================== the outcome

/-- What the waiting side has passed on, and the outcome that it has returned
with, are what they should be. -/
structure Reports (x : Extractor) (watch : Watcher) (requests : List Request)
    (files : FileSystem) (status : Status) (waiter : Waiter) : Prop where
  rising : (counts waiter.notices).Pairwise (· ≤ ·)
  outcome : ∀ outcome, waiter.stage = .returned outcome →
    outcome = x.extract watch requests files status
  last : ∀ outcome, waiter.stage = .returned outcome →
    (counts waiter.notices).getLast?
      = some (x.extract watch requests files status).1.status.completed
  polled : ∀ outcome, waiter.stage = .returned outcome →
    ∃ polls, await x watch requests files status polls
      = (waiter.notices, outcome)

/-- What is known of the two sides is enough for what the waiting side has to
report. -/
theorem Knows.reports {pair : Pair}
    (h : Knows x watch requests files status pair) :
    Reports x watch requests files status pair.waiter := by
  have htells := tells_run x watch requests.length
    (Order.ofRequests requests) files status
  refine ⟨h.sorted, fun outcome hreturned => ?_, fun outcome hreturned => ?_,
    fun outcome hreturned => ?_⟩
  all_goals obtain ⟨houtcome, polls, hpassed⟩ := h.looked.of_returned hreturned
  · exact houtcome
  · rw [hpassed, getLast?_counts_passed]
    exact congrArg some htells.completed_eq.symm
  · exact ⟨polls, by rw [hpassed, houtcome]; rfl⟩

end

/-- Whatever the order of their steps, the waiting side passes on counts that
never fall, and if neither side is left waiting for ever, it returns. It
returns with the outcome of an extraction that nobody waits for, and the last
count that it has passed on is that of the outcome. -/
theorem wait_reports (x : Extractor) (watch : Watcher)
    (requests : List Request) (files : FileSystem) (status : Status)
    (schedule : Nat → Side) :
    (∀ n, Reports x watch requests files status
        (Pair.after x watch requests files status schedule n).waiter)
      ∧ (Fair schedule → ∃ n outcome,
        (Pair.after x watch requests files status schedule n).waiter.stage
          = .returned outcome) := by
  constructor
  · intro n
    exact (knows_after schedule n).reports
  · intro hfair
    exact waiter_returns hfair fun _ => rfl

/-- Both sides take turns. -/
def alternating (n : Nat) : Side := if n % 2 = 0 then .worker else .waiter

/-- Sides that take turns both come to take steps. -/
theorem fair_alternating : Fair alternating := by
  intro side n
  cases side with
  | worker => exact ⟨2 * n, by omega, if_pos (by omega)⟩
  | waiter => exact ⟨2 * n + 1, by omega, if_neg (by omega)⟩

/-- Taking turns, the waiting side comes back with one file written and a last
count of three. -/
theorem wait_reports_alternating :
    ∃ n outcome, (Pair.after lonePack .silent threeRequests (.empty "home") {}
          alternating n).waiter.stage = .returned outcome
      ∧ outcome.1.report.written = [["one"]]
      ∧ (counts (Pair.after lonePack .silent threeRequests (.empty "home") {}
          alternating n).waiter.notices).getLast? = some 3 := by
  obtain ⟨hreports, hreturns⟩ := wait_reports lonePack .silent threeRequests
    (.empty "home") {} alternating
  obtain ⟨n, outcome, hreturned⟩ := hreturns fair_alternating
  refine ⟨n, outcome, hreturned, ?_, ?_⟩
  · rw [(hreports n).outcome outcome hreturned]
    decide +kernel
  · rw [(hreports n).last outcome hreturned]
    decide +kernel

end GameArchive.Extraction.Job
