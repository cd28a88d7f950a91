/-
Extractions play their turns.

The turns of an extraction are fixed before it begins, so what is true of
all extractions is shown of `play`, by one induction over a list, and no
proof has to follow orders and items again.

Main statement: `run_eq_play`.
-/
import GameArchive.Extraction.Turns

namespace GameArchive.Extraction

open Package (Container Error)

-- ========================================================= the session

namespace Session

variable (watch : Watcher) (event : Event) (s : Session)

@[simp] theorem files_emit : (s.emit watch event).files = s.files := rfl

@[simp] theorem report_emit : (s.emit watch event).report = s.report := rfl

@[simp] theorem events_emit :
    (s.emit watch event).events = s.events ++ [event] := rfl

/-- An event counts as the status says, whether or not the watcher then asks to
stop. -/
@[simp] theorem completed_emit :
    (s.emit watch event).status.completed
      = (s.status.after event).completed := by
  unfold emit Status.requestStop
  dsimp only
  split <;> rfl

/-- Nobody takes a request to stop back. -/
theorem stopRequested_emit (h : s.status.stopRequested = true) :
    (s.emit watch event).status.stopRequested = true := by
  have hafter : (s.status.after event).stopRequested = true := by
    cases event <;> exact h
  unfold emit Status.requestStop
  dsimp only
  split
  · rfl
  · exact hafter

end Session

-- ============================================================ one turn

namespace Turn

variable (watch : Watcher) (turn : Turn) (s : Session)

theorem files_noted : (turn.noted watch s).files = s.files := by
  rcases turn with ⟨_, _ | _⟩ | _ | ⟨_, _ | _, _⟩ <;> rfl

/-- The files after a turn are those that its outcome says. -/
@[simp] theorem files_played :
    (turn.played watch s).files = turn.after s.files := by
  unfold played
  rw [files_noted]
  rfl

/-- Who has asked to stop has still done so when the next turn begins. -/
theorem stopRequested_begun (h : s.status.stopRequested = true) :
    (turn.begun watch s).status.stopRequested = true :=
  s.stopRequested_emit watch turn.start h

theorem stopRequested_noted (h : s.status.stopRequested = true) :
    (turn.noted watch s).status.stopRequested = true := by
  rcases turn with ⟨_, _ | _⟩ | _ | ⟨_, _ | _, _⟩
  · exact h
  all_goals exact Session.stopRequested_emit watch _ _ h

end Turn

-- ============================================================= playing

/-- Opening a container never ends a run. -/
theorem play_opened (watch : Watcher) (strict : Bool) (container : String)
    (told : Option Nat) (turns : List Turn) (s : Session) :
    play watch strict (.opened container told :: turns) s
      = if s.status.stopRequested then (s, .cancelled)
        else play watch strict turns
          ((Turn.opened container told).played watch s) := by
  cases strict <;> rfl

variable (watch : Watcher) (strict : Bool)

/-- What is played of one list and then of another is played of both, unless the
first ends the run. -/
theorem play_append (front back : List Turn) (s : Session) :
    play watch strict (front ++ back) s
      = match play watch strict front s with
        | (s, .finished) => play watch strict back s
        | (s, ending) => (s, ending) := by
  induction front generalizing s with
  | nil => rfl
  | cons turn front ih =>
      rw [List.cons_append, play, play]
      by_cases hstop : s.status.stopRequested = true
      · rw [if_pos hstop, if_pos hstop]
      · rw [if_neg hstop, if_neg hstop]
        cases (if strict then turn.failure? else none) with
        | some cause => rfl
        | none => exact ih _

/-- After turns that were all played, the files are those of the last of
them. -/
@[simp] theorem files_playAll (turns : List Turn) (s : Session) :
    (playAll watch turns s).files = turns.foldl Turn.after s.files := by
  induction turns generalizing s with
  | nil => rfl
  | cons turn turns ih =>
      show (playAll watch turns (turn.played watch s)).files = _
      rw [ih, Turn.files_played, List.foldl_cons]

/-- What is kept by beginning turns, and by noting them, is kept by a
run. -/
theorem play_keeps {I : Session → Prop} {turns : List Turn}
    (hbegun : ∀ turn ∈ turns, ∀ s, I s → I (turn.begun watch s))
    (hnoted : ∀ turn ∈ turns, ∀ s, I s → I (turn.noted watch s)) :
    ∀ {s : Session}, I s → I (play watch strict turns s).1 := by
  induction turns with
  | nil => intro s hs; exact hs
  | cons turn turns ih =>
      intro s hs
      have hfirst := List.mem_cons_self (a := turn) (l := turns)
      unfold play
      by_cases hstop : s.status.stopRequested = true
      · rw [if_pos hstop]
        exact hs
      · rw [if_neg hstop]
        cases (if strict then turn.failure? else none) with
        | some cause => exact hbegun turn hfirst s hs
        | none =>
            apply ih
            · exact fun t ht => hbegun t (List.mem_cons_of_mem _ ht)
            · exact fun t ht => hnoted t (List.mem_cons_of_mem _ ht)
            · exact hnoted turn hfirst _ (hbegun turn hfirst s hs)

-- ======================================================= runs are played

/-- A run that is played to its end has played all turns. -/
theorem play_finished {turns : List Turn} {s t : Session}
    (h : play watch strict turns s = (t, .finished)) :
    t = playAll watch turns s := by
  induction turns generalizing s with
  | nil => exact (congrArg Prod.fst h).symm
  | cons turn turns ih =>
      unfold play at h
      by_cases hstop : s.status.stopRequested = true
      · rw [if_pos hstop] at h
        cases h
      · rw [if_neg hstop] at h
        cases hfailure : (if strict then turn.failure? else none) with
        | some cause =>
            rw [hfailure] at h
            cases h
        | none =>
            rw [hfailure] at h
            exact ih h

/-- What is told of a container that was opened. -/
theorem announce_eq (order : Order) (total count : Nat) (s : Session) :
    Extractor.announce watch order total count
        (s.emit watch (.loading order.container))
      = ((Turn.opened order.container (order.told total count)).played
            watch s,
          (Turn.opened order.container (order.told total count)).known
            total) := by
  unfold Extractor.announce Order.told
  cases order.wanted with
  | some paths => rfl
  | none => rfl

namespace Extractor

variable (x : Extractor)

-- Items are known of before their turns.
theorem known_itemTurns (c : Container) (items : List Order.Item)
    (files : FileSystem) (total : Nat) :
    (x.itemTurns c files items).foldl Turn.known total = total := by
  induction items generalizing files with
  | nil => rfl
  | cons item rest ih => exact ih _

/-- Extracting items is playing their turns. -/
theorem runItems_eq_play (c : Container) (items : List Order.Item)
    (s : Session) :
    x.runItems watch c items s
      = play watch x.options.strict (x.itemTurns c s.files items) s := by
  induction items generalizing s with
  | nil => rfl
  | cons item rest ih =>
      rw [runItems, itemTurns, play]
      by_cases hstop : s.status.stopRequested = true
      · rw [if_pos hstop, if_pos hstop]
      · rw [if_neg hstop, if_neg hstop]
        dsimp only [Session.files_emit]
        cases hstrict : x.options.strict <;> rw [hstrict] at ih <;>
          rcases x.extractEntry s.files c item.entry with ⟨_ | _, files⟩
        case true.error => rfl
        all_goals exact ih _

/-- An item that cannot be extracted is noted as failed, or ends a strict
run. -/
theorem runItems_of_error {c : Container} {item : Order.Item}
    {rest : List Order.Item} {s : Session} {cause : Error}
    (hstop : s.status.stopRequested = false)
    (hfailed : x.extractEntry s.files c item.entry
      = (.error cause, s.files)) :
    x.runItems watch c (item :: rest) s
      = if x.options.strict then
          (s.emit watch (.item item.path), .failed cause)
        else
          x.runItems watch c rest
            (((s.emit watch (.item item.path)).failed item.path
              cause).advance watch 1) := by
  rw [runItems, hstop, if_neg Bool.false_ne_true]
  dsimp only [Session.files_emit]
  rw [hfailed]
  rfl

/-- Carrying out orders is playing their turns. -/
theorem runOrders_eq_play (total : Nat) (orders : List Order) (s : Session) :
    x.runOrders watch total orders s
      = play watch x.options.strict (x.turns total s.files orders) s := by
  induction orders generalizing total s with
  | nil => rfl
  | cons order rest ih =>
      rw [runOrders, turns, play_append, orderTurns]
      by_cases hstop : s.status.stopRequested = true
      · rw [if_pos hstop]
        cases x.source s.files order.container <;>
          rw [play, if_pos hstop]
      rw [if_neg hstop]
      dsimp only [Session.files_emit]
      cases x.source s.files order.container with
      | error cause =>
          dsimp only
          rw [play, if_neg hstop]
          cases hstrict : x.options.strict with
          | true => rfl
          | false =>
              rw [hstrict] at ih
              exact ih _ _
      | ok c =>
          dsimp only
          rw [play_opened, if_neg hstop, announce_eq, runItems_eq_play,
            Turn.files_played]
          dsimp only [Turn.after, List.foldl_cons]
          -- What ends the items of an order ends the run; otherwise the other
          -- orders find the files that the items have left.
          cases hplayed : play watch x.options.strict
              (x.itemTurns c s.files (order.items c))
              ((Turn.opened order.container
                (order.told total c.entries.length)).played watch s) with
          | mk t ending =>
              cases ending with
              | finished =>
                  have hfiles : t.files = (x.itemTurns c s.files
                      (order.items c)).foldl Turn.after s.files := by
                    rw [play_finished watch _ hplayed, files_playAll,
                      Turn.files_played]
                    rfl
                  dsimp only
                  rw [ih, hfiles, known_itemTurns]
              | cancelled => rfl
              | failed cause => rfl

/-- An extraction plays its turns. -/
theorem run_eq_play (total : Nat) (orders : List Order) (files : FileSystem)
    (status : Status) :
    x.run watch total orders files status
      = play watch x.options.strict (x.turns total files orders)
          (Session.beginning watch total files status) :=
  x.runOrders_eq_play watch total orders _

end Extractor
end GameArchive.Extraction
